import GrpcLite.Server.Shutdown
import GrpcLite.Wire.Message
import Mathlib.Algebra.BigOperators.Group.List.Basic

/-!
# Draining a cleartext connection

The output of one cleartext connection of a draining server: nghttp2's frames are taken in pieces
by `flush`, batched into socket writes and completed one after the other, with the two watermarks
that stop and resume the flushing.  The connection is closed when it has nothing left to do.  An
event is one callback of the reactor's loop, and the loop may run the callbacks that are due in any
order.  What becomes of the writes of a connection that is being closed is left out.
-/

namespace GrpcLite.Drain

open Server (State)

/-- The watermarks that `validateTransportOptions` accepts. -/
structure Watermarks where
  high : ℕ
  low : ℕ
  low_pos : 0 < low
  low_lt_high : low < high
  deriving DecidableEq, Repr

abbrev Piece := { bytes : Bytes // bytes ≠ [] }

def socketWriteBatchTarget : ℕ := 64 * 1024

/-- The part of a connection that `flush` works on.  `output` is what nghttp2 has left to send,
`returned` are the bytes it has returned and `written` those of successful socket writes. -/
structure Transport where
  streams : ℕ := 0
  closing : Bool := false
  pendingWrites : ℕ := 0
  queuedWriteBytes : ℕ := 0
  writeQueue : List Bytes := []
  output : List Piece := []
  returned : Bytes := []
  written : Bytes := []
  deriving DecidableEq, Repr

/-- What happens inside one round of `flush`: nghttp2 fails, its callbacks close streams, submit
further frames or close the connection, or the socket write cannot be queued. -/
structure SendEffect where
  fails : Bool := false
  closed : ℕ := 0
  submitted : List Piece := []
  closes : Bool := false
  queueFails : Bool := false
  deriving DecidableEq, Repr

structure FlushEffects where
  rounds : List SendEffect := []
  lastFails : Bool := false
  deriving DecidableEq, Repr

def canFlushWritesWithPending (queued pending high : ℕ) : Bool :=
  queued < high && pending < high - queued

/-- `CleartextWriteBatch.append`: a batch that the chunk would overfill is handed out first. -/
def appendBatch (batch chunk : Bytes) (target : ℕ) : Option Bytes × Bytes :=
  if batch ≠ [] ∧ (target ≤ batch.length ∨ target - batch.length < chunk.length) then
    (some batch, chunk)
  else (none, batch ++ chunk)

namespace Transport

def queueOwnedSocketWrite (t : Transport) (bytes : Bytes) : Transport :=
  { t with
    pendingWrites := t.pendingWrites + 1
    queuedWriteBytes := t.queuedWriteBytes + bytes.length
    writeQueue := t.writeQueue ++ [bytes] }

def memSend (t : Transport) (effect : SendEffect) (piece : Piece) (rest : List Piece) : Transport :=
  { t with
    output := rest ++ effect.submitted
    streams := t.streams - effect.closed
    returned := t.returned ++ piece.val
    closing := t.closing || effect.closes }

/-- One piece goes into the batch, and what becomes full is queued. -/
def batchPiece (t : Transport) (batch : Bytes) (piece : Piece) : Bytes × Transport :=
  let (completed, batch) := appendBatch batch piece.val socketWriteBatchTarget
  let t := match completed with
    | some bytes => t.queueOwnedSocketWrite bytes
    | none => t
  if socketWriteBatchTarget ≤ batch.length then ([], t.queueOwnedSocketWrite batch)
  else (batch, t)

/-- The loop of `flush`.  It returns the last batch, or nothing if it fails. -/
def flushLoop (high : ℕ) : ℕ → List SendEffect → Bytes → Transport → Option Bytes × Transport
  | 0, _, batch, t => (some batch, t)
  | fuel + 1, effects, batch, t =>
    if t.closing ∨ ¬canFlushWritesWithPending t.queuedWriteBytes batch.length high then
      (some batch, t)
    else if (effects.headD {}).fails then (none, t)
    else match t.output with
      | [] => (some batch, t)
      | piece :: rest =>
        let t := t.memSend (effects.headD {}) piece rest
        if (effects.headD {}).queueFails then (none, t)
        else
          let (batch, t) := t.batchPiece batch piece
          flushLoop high fuel effects.tail batch t

/-- Rounds that are enough: each one takes a piece, of those there are or that are submitted. -/
def rounds (t : Transport) (effects : List SendEffect) : ℕ :=
  t.output.length + (effects.map (·.submitted.length)).sum

/-- `flush`, with whether it succeeds. -/
def flush (t : Transport) (high : ℕ) (effects : FlushEffects) : Bool × Transport :=
  match flushLoop high (t.rounds effects.rounds + 1) effects.rounds [] t with
  | (none, t) => (false, t)
  | (some batch, t) =>
    if batch = [] then (true, t)
    else if effects.lastFails then (false, t)
    else (true, t.queueOwnedSocketWrite batch)

end Transport

/-- The connection as it is when `maybeCloseDrainedConnection` closes it. -/
structure DrainClose where
  streams : ℕ
  returned : Bytes
  written : Bytes
  unsent : List Piece
  deriving DecidableEq, Repr

/-- One connection with the parts of its reactor that drain it.  The two `notified` flags say that
the callback of an async is due. -/
structure World where
  marks : Watermarks
  state : State := .running
  shutdownNotified : Bool := false
  drainStarted : Bool := false
  listenerAcceptActive : Bool := true
  listenerAcceptCancelSubmitted : Bool := false
  listenerCloseSubmitted : Bool := false
  listenerClosed : Bool := false
  draining : Bool := false
  closeAfterWrites : Bool := false
  dirtyQueued : Bool := false
  localGoawaySubmitted : Bool := false
  transport : Transport := {}
  drainCloses : List DrainClose := []
  deriving DecidableEq, Repr

namespace World

def closeOnLoop (w : World) : World :=
  { w with dirtyQueued := false, transport := { w.transport with closing := true } }

def flush (w : World) (effects : FlushEffects) : World :=
  let (ok, t) := w.transport.flush w.marks.high effects
  let w := { w with transport := t, dirtyQueued := w.dirtyQueued && !t.closing }
  if ok then w else w.closeOnLoop

def closeGracefully (w : World) : World :=
  if w.transport.closing ∨ w.closeAfterWrites then w
  else
    let w := { w with closeAfterWrites := true }
    if w.transport.pendingWrites = 0 then w.closeOnLoop else w

/-- `wantRead` is nghttp2's answer; it wants to write while it has output. -/
def closeTerminatedSession (w : World) (wantRead : Bool) : World :=
  if w.localGoawaySubmitted ∨ w.transport.closing ∨ wantRead ∨ w.transport.output ≠ [] then w
  else w.closeGracefully

def maybeCloseDrainedConnection (w : World) : World :=
  let t := w.transport
  if w.draining ∧ ¬t.closing ∧ t.streams = 0 ∧ t.pendingWrites = 0 then
    closeGracefully { w with
      drainCloses := w.drainCloses ++ [⟨t.streams, t.returned, t.written, t.output⟩] }
  else w

def submit (w : World) (pieces : List Piece) : World :=
  { w with transport := { w.transport with output := w.transport.output ++ pieces } }

def drainDirtyConnections (w : World) (effects : FlushEffects) (wantRead : Bool) : World :=
  if ¬w.dirtyQueued then w
  else
    let w := { w with dirtyQueued := false }
    if w.transport.closing then w
    else
      let w := (w.flush effects).closeTerminatedSession wantRead
      if w.transport.closing then w else w.maybeCloseDrainedConnection

def closeListener (w : World) : World :=
  if w.listenerCloseSubmitted then w
  else if w.listenerAcceptActive then
    { w with listenerAcceptCancelSubmitted := true }
  else { w with listenerCloseSubmitted := true }

def stopImmediately (w : World) : World := w.closeListener.closeOnLoop

/-- What nghttp2 makes of the GOAWAY: its bytes, or none if it does not take it. -/
structure Goaway where
  frame : Option Piece
  effects : FlushEffects
  deriving DecidableEq, Repr

def announce (w : World) (goaway : Goaway) : World :=
  let w := { w with draining := true, localGoawaySubmitted := true }
  match goaway.frame with
  | none => w.closeOnLoop
  | some frame => (w.submit [frame]).flush goaway.effects

def beginDrain (w : World) (goaway : Goaway) : World :=
  let w := if w.drainStarted then w else { w with drainStarted := true }.closeListener
  if ¬w.listenerClosed then w
  else
    let w := if w.draining ∨ w.transport.closing then w else w.announce goaway
    w.maybeCloseDrainedConnection

/-- What a received chunk leads to inside nghttp2's callbacks.  A draining connection refuses new
streams. -/
structure Received where
  fails : Bool := false
  submitted : List Piece := []
  opened : ℕ := 0
  closed : ℕ := 0
  closes : Bool := false
  deriving DecidableEq, Repr

def receive (w : World) (input : Received) : World :=
  let w := w.submit input.submitted
  let opened := if w.draining then 0 else input.opened
  let w := { w with transport := { w.transport with
    streams := w.transport.streams + opened - input.closed } }
  if input.closes then w.closeOnLoop else w

def onRead (w : World) (input : Received) (effects : FlushEffects) (wantRead readFails : Bool) :
    World :=
  if w.transport.closing then w
  else if input.fails then w.closeOnLoop
  else
    let w := ((w.receive input).flush effects).closeTerminatedSession wantRead
    if ¬w.closeAfterWrites ∧ readFails then w.closeOnLoop else w

/-- `ok` says that the write succeeded.  A notification is needed when no connection was in the
dirty queue, and `notifyFails` says that it was and failed. -/
def onWrite (w : World) (ok notifyFails : Bool) : World :=
  match w.transport.writeQueue with
  | [] => w
  | bytes :: rest =>
    let w := { w with transport := { w.transport with
      pendingWrites := w.transport.pendingWrites - 1
      queuedWriteBytes := w.transport.queuedWriteBytes - bytes.length
      writeQueue := rest } }
    if w.transport.closing then w
    else if ¬ok then w.closeOnLoop
    else
      let w := { w with transport := { w.transport with written := w.transport.written ++ bytes } }
      if w.closeAfterWrites ∧ w.transport.pendingWrites = 0 then w.closeOnLoop
      else if w.transport.queuedWriteBytes < w.marks.low then
        if ¬w.dirtyQueued ∧ notifyFails then w.closeOnLoop else { w with dirtyQueued := true }
      else w.maybeCloseDrainedConnection

/-- What the reactor does with the connection's streams outside of nghttp2's callbacks. -/
structure Work where
  submitted : List Piece := []
  closes : Bool := false
  deriving DecidableEq, Repr

/-- Streams of the connection may be worked on, after which it is flushed. -/
def work (w : World) : Option Work → World
  | none => w
  | some work =>
    if w.transport.closing then w
    else
      let w := w.submit work.submitted
      if work.closes then w.closeOnLoop else { w with dirtyQueued := true }

/-- The idle branch of `expireDeadlines`, if the connection's idle deadline has passed. -/
def expireIdle (w : World) : Option Goaway → World
  | none => w
  | some goaway =>
    if w.transport.closing ∨ w.state ≠ .running then w
    else if w.transport.streams ≠ 0 ∨ w.draining then w
    else
      let w := w.announce goaway
      if w.transport.closing then w
      else if w.transport.output ≠ [] then w.closeOnLoop
      else w.closeGracefully

end World

inductive Event where
  | shutdownGracefully
  | shutdown
  | onShutdown (goaway : World.Goaway)
  | onConnection
  | onListenerAcceptCanceled
  | onListenerClosed (goaway : World.Goaway)
  | onDrainTimeout
  | onRead (input : World.Received) (effects : FlushEffects) (wantRead readFails : Bool)
  | onWrite (ok notifyFails : Bool)
  | onStreamAsync (work : Option World.Work) (effects : FlushEffects) (wantRead : Bool)
  | onDeadlineTimer (idle : Option World.Goaway) (work : Option World.Work) (effects : FlushEffects)
      (wantRead : Bool)
  | close
  deriving DecidableEq, Repr

def step (w : World) : Event → World
  | .shutdownGracefully =>
    if w.state = .running then { w with state := .draining, shutdownNotified := true } else w
  | .shutdown =>
    if w.state = .running ∨ w.state = .draining then
      { w with state := .stopping, shutdownNotified := true }
    else w
  | .onShutdown goaway =>
    if ¬w.shutdownNotified then w
    else
      let w := { w with shutdownNotified := false }
      match w.state with
      | .draining => w.beginDrain goaway
      | .stopping => w.stopImmediately
      | _ => w
  | .onConnection =>
    -- another peer connects
    if ¬w.listenerAcceptActive ∨ w.state = .running then w
    else World.closeListener { w with listenerAcceptActive := false }
  | .onListenerAcceptCanceled =>
    if ¬w.listenerAcceptCancelSubmitted then w
    else World.closeListener { w with
      listenerAcceptActive := false
      listenerAcceptCancelSubmitted := false }
  | .onListenerClosed goaway =>
    if ¬w.listenerCloseSubmitted ∨ w.listenerClosed then w
    else
      let w := { w with listenerClosed := true }
      if w.state = .draining then w.beginDrain goaway else w
  | .onDrainTimeout =>
    if ¬w.drainStarted then w
    else
      let w := if w.state = .draining then { w with state := .stopping } else w
      w.stopImmediately
  | .onRead input effects wantRead readFails => w.onRead input effects wantRead readFails
  | .onWrite ok notifyFails => w.onWrite ok notifyFails
  | .onStreamAsync work effects wantRead => (w.work work).drainDirtyConnections effects wantRead
  | .onDeadlineTimer idle work effects wantRead =>
    ((w.expireIdle idle).work work).drainDirtyConnections effects wantRead
  | .close => w.closeOnLoop

/-- A connection that was just accepted: its SETTINGS are flushed. -/
def accepted (marks : Watermarks) (settings : Piece) (effects : FlushEffects) : World :=
  World.flush { marks := marks, transport := { output := [settings] } } effects

/-! ## Flushing -/

namespace Transport

/-- The counters agree with the write queue, and everything that nghttp2 returned was written, is
queued or is in the batch. -/
structure Books (t : Transport) (batch : Bytes) : Prop where
  pending : t.pendingWrites = t.writeQueue.length
  queued : t.queuedWriteBytes = (t.writeQueue.map List.length).sum
  filled : ∀ bytes ∈ t.writeQueue, bytes ≠ []
  bytes : t.returned = t.written ++ t.writeQueue.flatten ++ batch

variable {t : Transport} {batch : Bytes}

theorem Books.queue {rest : Bytes} (h : t.Books (batch ++ rest)) (hbatch : batch ≠ []) :
    (t.queueOwnedSocketWrite batch).Books rest where
  pending := by simp [queueOwnedSocketWrite, h.pending]
  queued := by simp [queueOwnedSocketWrite, h.queued]
  filled := List.forall_mem_append.mpr ⟨h.filled, List.forall_mem_singleton.mpr hbatch⟩
  bytes := by simp [queueOwnedSocketWrite, h.bytes]

theorem Books.batchPiece {piece : Piece} (h : t.Books (batch ++ piece.val)) :
    (t.batchPiece batch piece).2.Books (t.batchPiece batch piece).1 ∧
      (t.batchPiece batch piece).2.output = t.output := by
  have hlast : ∀ {t' : Transport} {last : Bytes}, t'.Books last → last ≠ [] →
      t'.output = t.output →
      let result := if socketWriteBatchTarget ≤ last.length then
        (([] : Bytes), t'.queueOwnedSocketWrite last) else (last, t')
      result.2.Books result.1 ∧ result.2.output = t.output := by
    intro t' last hbooks hfilled houtput
    dsimp only
    split
    · exact ⟨Books.queue (by rwa [List.append_nil]) hfilled, houtput⟩
    · exact ⟨hbooks, houtput⟩
  unfold Transport.batchPiece appendBatch
  split_ifs with hfull
  · exact hlast (h.queue hfull.1) piece.property rfl
  · exact hlast h (by simp [piece.property]) rfl

theorem flushLoop_spec {high : ℕ} (fuel : ℕ) (effects : List SendEffect) (h : t.Books batch)
    (hfuel : t.rounds effects < fuel) {batch' : Bytes} {t' : Transport}
    (hresult : flushLoop high fuel effects batch t = (some batch', t')) :
    t'.closing = true ∨ t'.Books batch' ∧
      (t'.output = [] ∨ canFlushWritesWithPending t'.queuedWriteBytes batch'.length high =
        false) := by
  induction fuel generalizing effects batch t with
  | zero => exact absurd hfuel (Nat.not_lt_zero _)
  | succ fuel ih =>
    rw [flushLoop] at hresult
    split at hresult
    · rename_i hstop
      obtain ⟨rfl, rfl⟩ : batch = batch' ∧ t = t' := by simpa using hresult
      rcases hstop with hclosing | hfull
      · exact .inl hclosing
      · exact .inr ⟨h, .inr (by simpa using hfull)⟩
    split at hresult
    · cases hresult
    split at hresult
    · rename_i hempty
      obtain ⟨rfl, rfl⟩ : batch = batch' ∧ t = t' := by simpa using hresult
      exact .inr ⟨h, .inl hempty⟩
    · rename_i piece rest houtput
      dsimp only at hresult
      split at hresult
      · cases hresult
      have hreturned : (t.memSend (effects.headD {}) piece rest).Books (batch ++ piece.val) :=
        { h with bytes := by simp [memSend, h.bytes] }
      obtain ⟨hbooks, hsame⟩ := hreturned.batchPiece
      refine ih effects.tail hbooks ?_ hresult
      -- a round takes one piece
      rw [rounds, hsame]
      have hrounds : t.rounds effects + 1 ≤ fuel + 1 := hfuel
      rw [rounds, houtput] at hrounds
      cases effects with
      | nil =>
        simp only [List.length_cons, List.map_nil, List.sum_nil] at hrounds
        simp only [memSend, List.headD_nil, List.append_nil, List.tail_nil, List.map_nil,
          List.sum_nil]
        omega
      | cons =>
        simp only [List.length_cons, List.map_cons, List.sum_cons] at hrounds
        simp only [memSend, List.headD_cons, List.length_append, List.tail_cons]
        omega

/-- After a flush that succeeds on an open connection, whatever is left waits for a write. -/
theorem flush_spec {high : ℕ} (hhigh : 0 < high) {t' : Transport} {effects : FlushEffects}
    (h : t.Books []) (hresult : t.flush high effects = (true, t')) :
    t'.closing = true ∨ t'.Books [] ∧ (t'.output ≠ [] → t'.writeQueue ≠ []) := by
  unfold flush at hresult
  split at hresult
  · cases hresult
  · rename_i batch t₁ hloop
    have hspec := flushLoop_spec _ _ h (Nat.lt_succ_self _) hloop
    split at hresult
    · rename_i hempty
      obtain rfl : t₁ = t' := by simpa using hresult
      subst hempty
      refine hspec.imp_right fun ⟨hbooks, hstopped⟩ => ⟨hbooks, fun hleft hqueue => ?_⟩
      rcases hstopped with hnone | hfull
      · exact hleft hnone
      · have hzero : t₁.queuedWriteBytes = 0 := by rw [hbooks.queued, hqueue]; rfl
        rw [hzero] at hfull
        simp [canFlushWritesWithPending] at hfull
        omega
    · rename_i hfilled
      split at hresult
      · cases hresult
      · obtain rfl : t₁.queueOwnedSocketWrite batch = t' := by simpa using hresult
        refine hspec.imp id fun ⟨hbooks, _⟩ => ⟨Books.queue (by rwa [List.append_nil]) hfilled, ?_⟩
        simp [queueOwnedSocketWrite]

theorem Books.complete {bytes : Bytes} {rest : List Bytes} (h : t.Books [])
    (hqueue : t.writeQueue = bytes :: rest) :
    Books { t with
      pendingWrites := t.pendingWrites - 1
      queuedWriteBytes := t.queuedWriteBytes - bytes.length
      writeQueue := rest
      written := t.written ++ bytes } [] where
  pending := by simp [h.pending, hqueue]
  queued := by simp [h.queued, hqueue]
  filled other hmem := h.filled other (by rw [hqueue]; exact List.mem_cons_of_mem _ hmem)
  bytes := by simp [h.bytes, hqueue]

theorem flush_closing (h : t.closing = true) (high : ℕ) (effects : FlushEffects) :
    t.flush high effects = (true, t) := by
  rw [flush, flushLoop, if_pos (.inl h)]
  rfl

end Transport

/-! ## The connection between two events -/

/-- Nothing was dropped: no stream is left, every returned byte was written and nghttp2 has nothing
to send. -/
def DrainClose.Complete (record : DrainClose) : Prop :=
  record.streams = 0 ∧ record.written = record.returned ∧ record.unsent = []

namespace World

structure Kept (w : World) : Prop where
  books : w.transport.closing = false → w.transport.Books []
  records : ∀ record ∈ w.drainCloses, record.Complete

/-- What is left to send waits for a write to complete, or the connection is in the dirty queue. -/
structure Sound (w : World) : Prop extends Kept w where
  unsent : w.transport.closing = false → w.transport.output ≠ [] →
    w.transport.writeQueue ≠ [] ∨ w.dirtyQueued = true

def Flushed (w : World) : Prop :=
  w.transport.closing = false → w.transport.output ≠ [] → w.transport.writeQueue ≠ []

variable {w : World}

theorem closeOnLoop_sound (hrecords : ∀ record ∈ w.drainCloses, record.Complete) :
    w.closeOnLoop.Sound :=
  ⟨⟨nofun, hrecords⟩, nofun⟩

theorem closeOnLoop_flushed (w : World) : w.closeOnLoop.Flushed := nofun

theorem flush_sound (h : w.Kept) (effects : FlushEffects) :
    (w.flush effects).Sound ∧ (w.flush effects).Flushed := by
  unfold flush
  by_cases hclosing : w.transport.closing = true
  · rw [Transport.flush_closing hclosing]
    refine ⟨⟨⟨fun hopen => ?_, h.records⟩, fun hopen => ?_⟩, fun hopen => ?_⟩ <;>
      cases hclosing.symm.trans hopen
  · have hhigh : 0 < w.marks.high := w.marks.low_pos.trans w.marks.low_lt_high
    cases hresult : w.transport.flush w.marks.high effects with
    | mk ok t =>
      cases ok with
      | false => exact ⟨closeOnLoop_sound h.records, closeOnLoop_flushed _⟩
      | true =>
        have hspec := Transport.flush_spec hhigh (h.books (by simpa using hclosing)) hresult
        have hopened : t.closing = false → t.Books [] ∧ (t.output ≠ [] → t.writeQueue ≠ []) :=
          fun hopen => hspec.resolve_left (by simp [hopen])
        exact ⟨⟨⟨fun hopen => (hopened hopen).1, h.records⟩,
          fun hopen hleft => .inl ((hopened hopen).2 hleft)⟩, fun hopen => (hopened hopen).2⟩

theorem closeGracefully_sound (h : w.Sound) : w.closeGracefully.Sound := by
  unfold closeGracefully
  split
  · exact h
  · dsimp only
    split
    · exact closeOnLoop_sound h.records
    · exact { h with }

theorem closeGracefully_flushed (h : w.Flushed) : w.closeGracefully.Flushed := by
  unfold closeGracefully
  split
  · exact h
  · dsimp only
    split
    · exact nofun
    · exact h

theorem closeTerminatedSession_sound (h : w.Sound) (hflushed : w.Flushed) (wantRead : Bool) :
    (w.closeTerminatedSession wantRead).Sound ∧ (w.closeTerminatedSession wantRead).Flushed := by
  unfold closeTerminatedSession
  split
  · exact ⟨h, hflushed⟩
  · exact ⟨closeGracefully_sound h, closeGracefully_flushed hflushed⟩

theorem maybeCloseDrainedConnection_sound (h : w.Sound)
    (hidle : w.draining → w.transport.closing = false → w.transport.streams = 0 →
      w.transport.writeQueue = [] → w.transport.output = []) :
    w.maybeCloseDrainedConnection.Sound := by
  unfold maybeCloseDrainedConnection
  dsimp only
  split
  · rename_i hdrained
    obtain ⟨hdraining, hclosing, hstreams, hpending⟩ := hdrained
    have hopen : w.transport.closing = false := by simpa using hclosing
    have hbooks := h.books hopen
    have hqueue : w.transport.writeQueue = [] :=
      List.eq_nil_of_length_eq_zero (hbooks.pending.symm.trans hpending)
    apply closeGracefully_sound
    refine { h with
      records := List.forall_mem_append.mpr ⟨h.records, List.forall_mem_singleton.mpr ?_⟩ }
    refine ⟨hstreams, ?_, hidle hdraining hopen hstreams hqueue⟩
    simp [hbooks.bytes, hqueue]
  · exact h

theorem Flushed.idle (h : w.Flushed) (hopen : w.transport.closing = false)
    (hqueue : w.transport.writeQueue = []) : w.transport.output = [] := by
  by_contra hleft
  exact h hopen hleft hqueue

theorem submit_kept (h : w.Kept) (pieces : List Piece) : (w.submit pieces).Kept :=
  ⟨fun hopen => { h.books hopen with }, h.records⟩

theorem drainDirtyConnections_sound (h : w.Sound) (effects : FlushEffects) (wantRead : Bool) :
    (w.drainDirtyConnections effects wantRead).Sound := by
  unfold drainDirtyConnections
  split
  · exact h
  · have hkept : Kept { w with dirtyQueued := false } := ⟨h.books, h.records⟩
    dsimp only
    split
    · rename_i hclosing
      refine ⟨hkept, fun hopen => ?_⟩
      cases hclosing.symm.trans hopen
    · obtain ⟨hsound, hflushed⟩ := flush_sound hkept effects
      obtain ⟨hsound, hflushed⟩ := closeTerminatedSession_sound hsound hflushed wantRead
      split
      · exact hsound
      · exact maybeCloseDrainedConnection_sound hsound fun _ hopen _ => hflushed.idle hopen

theorem receive_kept (h : w.Kept) (input : Received) : (w.receive input).Kept := by
  unfold receive
  dsimp only
  split
  · exact ⟨nofun, h.records⟩
  · exact ⟨fun hopen => { h.books hopen with }, h.records⟩

theorem onRead_sound (h : w.Sound) (input : Received) (effects : FlushEffects)
    (wantRead readFails : Bool) : (w.onRead input effects wantRead readFails).Sound := by
  unfold onRead
  split
  · exact h
  · split
    · exact closeOnLoop_sound h.records
    · obtain ⟨hsound, hflushed⟩ := flush_sound (receive_kept h.toKept input) effects
      have hterminated := (closeTerminatedSession_sound hsound hflushed wantRead).1
      dsimp only
      split
      · exact closeOnLoop_sound hterminated.records
      · exact hterminated

theorem onWrite_sound (h : w.Sound) (ok notifyFails : Bool) : (w.onWrite ok notifyFails).Sound := by
  unfold onWrite
  split
  · exact h
  · rename_i rest hqueue
    dsimp only
    split
    · rename_i hclosing
      refine ⟨⟨fun hopen => ?_, h.records⟩, fun hopen => ?_⟩ <;>
        cases hclosing.symm.trans hopen
    · rename_i hclosing
      have hopen : w.transport.closing = false := by simpa using hclosing
      have hbooks := (h.books hopen).complete hqueue
      split
      · exact closeOnLoop_sound h.records
      · split
        · exact closeOnLoop_sound h.records
        · split
          · split
            · exact closeOnLoop_sound h.records
            · exact ⟨⟨fun _ => hbooks, h.records⟩, fun _ _ => .inr rfl⟩
          · -- above the low watermark a write is still queued
            rename_i hlow
            have hqueued : rest ≠ [] := by
              rintro rfl
              have hzero := hbooks.queued
              simp only [List.map_nil, List.sum_nil] at hzero
              have := w.marks.low_pos
              simp only [hzero] at hlow
              omega
            exact maybeCloseDrainedConnection_sound
              ⟨⟨fun _ => hbooks, h.records⟩, fun _ _ => .inl hqueued⟩
              fun _ _ _ hnone => absurd hnone hqueued

theorem work_sound (h : w.Sound) (work : Option Work) : (w.work work).Sound := by
  unfold World.work
  split
  · exact h
  · split
    · exact h
    · dsimp only
      split
      · exact closeOnLoop_sound h.records
      · exact ⟨⟨(submit_kept h.toKept _).books, h.records⟩, fun _ _ => .inr rfl⟩

theorem announce_sound (h : w.Kept) (goaway : Goaway) :
    (w.announce goaway).Sound ∧ (w.announce goaway).Flushed := by
  have hkept : Kept { w with draining := true, localGoawaySubmitted := true } :=
    ⟨h.books, h.records⟩
  unfold announce
  dsimp only
  split
  · exact ⟨closeOnLoop_sound h.records, closeOnLoop_flushed _⟩
  · exact flush_sound (submit_kept hkept _) goaway.effects

theorem expireIdle_sound (h : w.Sound) (goaway : Option Goaway) : (w.expireIdle goaway).Sound := by
  unfold expireIdle
  split
  · exact h
  · split
    · exact h
    · split
      · exact h
      · have hsound := (announce_sound h.toKept (by assumption)).1
        dsimp only
        split
        · exact hsound
        · split
          · exact closeOnLoop_sound hsound.records
          · exact closeGracefully_sound hsound

theorem closeListener_sound (h : w.Sound) : w.closeListener.Sound := by
  unfold closeListener
  split
  · exact h
  · split
    · exact { h with }
    · exact { h with }

/-- The drain pass of the reactor does not find the connection in its dirty queue, draining already
and with neither a stream nor a write. -/
def DrainsFlushed (w : World) : Prop :=
  ¬(w.draining ∧ ¬w.transport.closing ∧ w.transport.streams = 0 ∧ w.transport.pendingWrites = 0 ∧
    w.dirtyQueued)

theorem beginDrain_sound (h : w.Sound) (hdrains : w.DrainsFlushed) (goaway : Goaway) :
    (w.beginDrain goaway).Sound := by
  unfold beginDrain
  -- closing the listener changes neither the connection nor its output
  have hlistener : ∀ w₁ : World, w₁.Sound → w₁.DrainsFlushed →
      (if ¬w₁.listenerClosed then w₁
        else maybeCloseDrainedConnection
          (if w₁.draining ∨ w₁.transport.closing then w₁ else w₁.announce goaway)).Sound := by
    intro w₁ h₁ hdrains₁
    split
    · exact h₁
    · split
      · refine maybeCloseDrainedConnection_sound h₁ fun hdraining hopen hstreams hqueue => ?_
        by_contra hleft
        have hpending : w₁.transport.pendingWrites = 0 := by
          rw [(h₁.books hopen).pending, hqueue]
          rfl
        rcases h₁.unsent hopen hleft with hwrites | hdirty
        · exact hwrites hqueue
        · exact hdrains₁ ⟨hdraining, by simp [hopen], hstreams, hpending, hdirty⟩
      · obtain ⟨hsound, hflushed⟩ := announce_sound h₁.toKept goaway
        exact maybeCloseDrainedConnection_sound hsound fun _ hopen _ => hflushed.idle hopen
  split
  · exact hlistener w h hdrains
  · refine hlistener _ (closeListener_sound { h with }) ?_
    unfold closeListener
    split
    · exact hdrains
    · split <;> exact hdrains

theorem stopImmediately_sound (h : w.Sound) : w.stopImmediately.Sound :=
  closeOnLoop_sound (closeListener_sound h).records

end World

/-! ## Runs -/

/-- A drain pass may only start when no connection waits for its flush. -/
def DrainsWhenFlushed (w : World) : Event → Prop
  | .onShutdown _ | .onListenerClosed _ => w.DrainsFlushed
  | _ => True

instance (w : World) (event : Event) : Decidable (DrainsWhenFlushed w event) := by
  cases event <;> unfold DrainsWhenFlushed World.DrainsFlushed <;> infer_instance

theorem step_sound {w : World} (h : w.Sound) {event : Event} (hdrains : DrainsWhenFlushed w event) :
    (step w event).Sound := by
  cases event with
  | shutdownGracefully | shutdown =>
    simp only [step]
    split
    · exact { h with }
    · exact h
  | onShutdown goaway =>
    simp only [step]
    split
    · exact h
    · split
      · refine World.beginDrain_sound ?_ ?_ goaway
        · exact { h with }
        · exact hdrains
      · exact World.stopImmediately_sound { h with }
      · exact { h with }
  | onConnection | onListenerAcceptCanceled =>
    simp only [step]
    split
    · exact h
    · exact World.closeListener_sound { h with }
  | onListenerClosed goaway =>
    simp only [step]
    split
    · exact h
    · split
      · refine World.beginDrain_sound ?_ ?_ goaway
        · exact { h with }
        · exact hdrains
      · exact { h with }
  | onDrainTimeout =>
    simp only [step]
    split
    · exact h
    · apply World.stopImmediately_sound
      split
      · exact { h with }
      · exact h
  | onRead input effects wantRead readFails =>
    exact World.onRead_sound h input effects wantRead readFails
  | onWrite ok notifyFails => exact World.onWrite_sound h ok notifyFails
  | onStreamAsync work effects wantRead =>
    exact World.drainDirtyConnections_sound (World.work_sound h work) effects wantRead
  | onDeadlineTimer idle work effects wantRead =>
    exact World.drainDirtyConnections_sound (World.work_sound (World.expireIdle_sound h idle) work)
      effects wantRead
  | close => exact World.closeOnLoop_sound h.records

theorem accepted_sound (marks : Watermarks) (settings : Piece) (effects : FlushEffects) :
    (accepted marks settings effects).Sound := by
  have hkept : World.Kept { marks := marks, transport := { output := [settings] } } :=
    { books := fun _ => { pending := rfl, queued := rfl, filled := by simp, bytes := rfl }
      records := by simp }
  exact (World.flush_sound hkept effects).1

/-- In every run whose drain passes all start with the connection flushed, whatever connection
`maybeCloseDrainedConnection` closes has no stream, has written all it took from nghttp2 and has
left nothing there. -/
theorem drain_drops_no_output (marks : Watermarks) (settings : Piece) (effects : FlushEffects)
    (events : List Event)
    (hdrains : Run.Meets step DrainsWhenFlushed (accepted marks settings effects) events) :
    ∀ record ∈ (Run.final step (accepted marks settings effects) events).drainCloses,
      record.Complete := by
  have hsound : (Run.final step (accepted marks settings effects) events).Sound :=
    Run.invariant (I := World.Sound) (fun _ _ h hdrains => step_sound h hdrains)
      (accepted_sound marks settings effects) hdrains
  exact hsound.records

def tightMarks : Watermarks := ⟨16, 8, by decide, by decide⟩

def frame (length kind flags : UInt8) (payload : Bytes) : Piece :=
  ⟨0 :: 0 :: length :: kind :: flags :: 0 :: 0 :: 0 :: 0 :: payload, List.cons_ne_nil _ _⟩

/-- The default window of 64 KiB and the default of 100 streams. -/
def settings : Piece := frame 12 4 0 [0, 4, 0, 1, 0, 0, 0, 3, 0, 0, 0, 100]

def goaway : Piece := frame 8 7 0 [0, 0, 0, 0, 0, 0, 0, 0]

def settingsAck : Piece := frame 0 4 1 []

def pingAck : Piece := frame 8 6 1 [0, 0, 0, 0, 0, 0, 0, 1]

/-- The SETTINGS are written, the server starts to drain and the connection is closed once it is
flushed. -/
theorem drain_drops_no_output_undisturbed :
    let events := [.onWrite true false, .onStreamAsync none {} true, .shutdownGracefully,
      .onShutdown ⟨some goaway, {}⟩, .onListenerAcceptCanceled, .onListenerClosed ⟨some goaway, {}⟩,
      .onWrite true false, .onStreamAsync none {} true]
    let w := Run.final step (accepted tightMarks settings {}) events
    let sent := settings.val ++ goaway.val
    w.transport.closing = true ∧ w.drainCloses = [⟨0, sent, sent, []⟩] ∧
      ∀ record ∈ w.drainCloses, record.Complete :=
  ⟨by decide +kernel, by decide +kernel,
    drain_drops_no_output tightMarks settings {} _ (by decide +kernel)⟩

/-- A connection attempt closes the listener before `onShutdown` runs.  The first pass stops at
the high watermark with the GOAWAY left in nghttp2; the write completes, and the pass that
`onShutdown` makes closes the connection before it is flushed again. -/
theorem second_pass_drops_goaway :
    let events := [.onWrite true false, .onStreamAsync none {} true, .shutdownGracefully,
      .onRead { submitted := [settingsAck, pingAck] } {} true false, .onConnection,
      .onListenerClosed ⟨some goaway, {}⟩, .onWrite true false, .onShutdown ⟨some goaway, {}⟩]
    let w := Run.final step (accepted tightMarks settings {}) events
    let sent := settings.val ++ settingsAck.val ++ pingAck.val
    w.transport.closing = true ∧ w.drainCloses = [⟨0, sent, sent, [goaway]⟩] := by
  decide +kernel

end GrpcLite.Drain
