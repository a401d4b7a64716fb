import GrpcLite.Lib.Pool
import GrpcLite.Wire.Status

/-!
# Connection admission

The sockets that the reactors of a server accept, with the counter of admitted connections that all
of them share.  A socket is followed from `onConnection` through the loop of `tryClaimConnection`,
the steps of the setup and the closing of its connection to the end.  The reactors' loops run in
parallel: a step is one access to the shared counter or one callback, and the steps of different
sockets interleave freely.  A completion calls back once for each time it is submitted.
-/

namespace GrpcLite.Admission

inductive CloseReason where
  | peerTransport
  | protocolLocal
  | prefaceTimeout
  | idleTimeout
  | gracefulDrain
  | forcedShutdown
  deriving DecidableEq, Repr

/-! ## The closing of a connection -/

/-- The part of a connection that decides when it is gone.  `latches` is history: the reasons
that were latched, in order. -/
structure Connection where
  ownsAdmission : Bool := false
  closeReason : Option CloseReason := none
  pendingWrites : ℕ := 0
  closeAfterWrites : Bool := false
  closing : Bool := false
  readActive : Bool := false
  readCancelSubmitted : Bool := false
  writeCancelSubmitted : Bool := false
  closeSubmitted : Bool := false
  closeCompleted : Bool := false
  latches : List CloseReason := []
  deriving DecidableEq, Repr

namespace Connection

def latchCloseReason (reason : CloseReason) (c : Connection) : Connection :=
  { c with
    closeReason := if c.closeReason.isNone then some reason else c.closeReason
    latches := c.latches ++ [reason] }

def submitCloseIfReady (c : Connection) : Connection :=
  if c.closeSubmitted || c.readActive || c.pendingWrites != 0 then c
  else { c with closeSubmitted := true }

/-- The first write of the queue is with the kernel, unless the queue is calling back about the
one before it: then the rest is discarded. -/
def cancelWrites (inWrite : Bool) (c : Connection) : Connection :=
  if c.pendingWrites = 0 then c
  else if inWrite then { c with pendingWrites := 0 }
  else { c with writeCancelSubmitted := true }

def closeOnLoop (inWrite : Bool) (c : Connection) : Connection :=
  let c := c.latchCloseReason .protocolLocal
  if c.closing then c
  else
    let c := { c with
      closing := true
      readCancelSubmitted := c.readCancelSubmitted || c.readActive }
    (c.cancelWrites inWrite).submitCloseIfReady

def closeWithReason (reason : CloseReason) (inWrite : Bool) (c : Connection) : Connection :=
  (c.latchCloseReason reason).closeOnLoop inWrite

def startRead (c : Connection) : Connection :=
  if c.closeAfterWrites || c.closing || c.readActive then c else { c with readActive := true }

def queueWrite (c : Connection) : Connection := { c with pendingWrites := c.pendingWrites + 1 }

/-- `notify` is what the TLS close notification did: it failed, or some writes were queued. -/
def closeGracefully (notify : Option ℕ) (c : Connection) : Connection :=
  if c.closing || c.closeAfterWrites then c
  else
    let c := c.latchCloseReason .protocolLocal
    match notify with
    | none => c.closeOnLoop false
    | some writes =>
      let c := { c with pendingWrites := c.pendingWrites + writes, closeAfterWrites := true }
      if c.pendingWrites = 0 then c.closeOnLoop false else c

/-- What the code that handles the bytes, commands, deadlines and shutdowns of a connection does to
it, call by call. -/
inductive Effect where
  | latchCloseReason (reason : CloseReason)
  | closeOnLoop
  | closeGracefully (notify : Option ℕ)
  | queueWrite
  | startRead
  deriving DecidableEq, Repr

def apply (c : Connection) : Effect → Connection
  | .latchCloseReason reason => c.latchCloseReason reason
  | .closeOnLoop => c.closeOnLoop false
  | .closeGracefully notify => c.closeGracefully notify
  | .queueWrite => c.queueWrite
  | .startRead => c.startRead

def applyAll (effects : List Effect) (c : Connection) : Connection := effects.foldl apply c

/-- The completions of a connection and the other callbacks that touch it. -/
inductive Callback where
  | other (effects : List Effect)
  | read (fails : Bool) (effects : List Effect)
  | write (fails low notifyFails : Bool)
  | readCanceled
  | writeCanceled (notFound : Bool)
  | closed
  deriving DecidableEq, Repr

def isFinished (c : Connection) : Bool :=
  c.closeCompleted && !c.readActive && c.pendingWrites == 0 && !c.readCancelSubmitted &&
    !c.writeCancelSubmitted

def onRead (fails : Bool) (effects : List Effect) (c : Connection) : Connection :=
  let c := { c with readActive := false }
  if fails then (c.closeWithReason .peerTransport false).submitCloseIfReady
  else
    let c := c.applyAll effects
    if c.closing then c.submitCloseIfReady else c

/-- `low` says that fewer bytes than the low watermark are queued: the connection is then flushed
from another callback, unless the wake-up fails.  Otherwise something is still pending, so that
`maybeCloseDrainedConnection` does nothing. -/
def onWrite (fails low notifyFails : Bool) (c : Connection) : Connection :=
  let c := { c with pendingWrites := c.pendingWrites - 1 }
  if c.closing then submitCloseIfReady { c with pendingWrites := 0 }
  else if fails then c.closeWithReason .peerTransport true
  else if c.closeAfterWrites && c.pendingWrites == 0 then c.closeOnLoop true
  else if low && notifyFails then c.closeOnLoop true
  else c

def onReadCanceled (c : Connection) : Connection :=
  submitCloseIfReady { c with readCancelSubmitted := false }

/-- The cancellation is repeated while the write it is for is still with the kernel. -/
def onWriteCanceled (notFound : Bool) (c : Connection) : Connection :=
  if notFound && c.pendingWrites != 0 then c
  else submitCloseIfReady { c with writeCancelSubmitted := false }

/-- A callback whose completion is not submitted does not happen. -/
def handle (c : Connection) : Callback → Connection
  | .other effects => c.applyAll effects
  | .read fails effects => if c.readActive then c.onRead fails effects else c
  | .write fails low notifyFails =>
    if c.pendingWrites = 0 then c else c.onWrite fails low notifyFails
  | .readCanceled => if c.readCancelSubmitted then c.onReadCanceled else c
  | .writeCanceled notFound => if c.writeCancelSubmitted then c.onWriteCanceled notFound else c
  | .closed =>
    if c.closeSubmitted && !c.closeCompleted then { c with closeCompleted := true } else c

end Connection

/-! ## The sockets of a server -/

/-- The steps of `onConnection` that can fail before the connection owns its admission. -/
inductive SetupStep where
  | noDelay
  | create
  | append
  deriving DecidableEq, Repr

/-- `trying` holds the value that the loop of `tryClaimConnection` last saw. -/
inductive Phase where
  | accepted
  | trying (current : ℕ)
  | setup (step : SetupStep)
  | connected (c : Connection)
  | gone
  deriving DecidableEq, Repr

/-- All but the reactor and the phase is history: how often the socket claimed and released, whether
its connection owned the admission, the reasons that were latched by the end and those it was
counted under. -/
structure Socket where
  reactor : ℕ
  phase : Phase := .accepted
  claims : ℕ := 0
  releases : ℕ := 0
  owned : Bool := false
  latches : List CloseReason := []
  counted : List CloseReason := []
  deriving DecidableEq, Repr

structure Shared where
  maxConnections : ℕ
  admitted : ℕ := 0
  rejected : ℕ → ℕ := fun _ => 0
  closes : ℕ → CloseReason → ℕ := fun _ _ => 0

namespace Shared

def countRejected (s : Shared) (reactor : ℕ) : Shared :=
  { s with rejected := Function.update s.rejected reactor (satAdd (s.rejected reactor) 1) }

def countClose (s : Shared) (reactor : ℕ) (reason : CloseReason) : Shared :=
  { s with
    closes := Function.update s.closes reactor
      (Function.update (s.closes reactor) reason (satAdd (s.closes reactor reason) 1)) }

def releaseConnection (s : Shared) : Shared := { s with admitted := s.admitted - 1 }

end Shared

/-- A reactor that no longer accepts closes the socket at once. -/
def accept (s : Shared) : ℕ × Bool → Shared × Socket
  | (reactor, isAccepting) => (s, { reactor, phase := if isAccepting then .accepted else .gone })

inductive Action where
  | load
  | exchange (spurious : Bool)
  | setup (fails : Bool)
  | callback (callback : Connection.Callback)
  deriving DecidableEq, Repr

/-- One round of the loop of `tryClaimConnection`; the weak exchange may fail spuriously. -/
def exchange (spurious : Bool) (s : Shared) (socket : Socket) (current : ℕ) : Shared × Socket :=
  if current < s.maxConnections then
    if s.admitted = current ∧ spurious = false then
      ({ s with admitted := s.admitted + 1 },
        { socket with phase := .setup .noDelay, claims := socket.claims + 1 })
    else (s, { socket with phase := .trying s.admitted })
  else (s.countRejected socket.reactor, { socket with phase := .gone })

def setup (fails : Bool) (s : Shared) (socket : Socket) (step : SetupStep) : Shared × Socket :=
  if fails then
    (s.releaseConnection, { socket with phase := .gone, releases := socket.releases + 1 })
  else
    match step with
    | .noDelay => (s, { socket with phase := .setup .create })
    | .create => (s, { socket with phase := .setup .append })
    | .append => (s, { socket with phase := .connected { ownsAdmission := true }, owned := true })

def finishCloseIfReady (s : Shared) (socket : Socket) (c : Connection) : Shared × Socket :=
  if c.isFinished then
    if c.ownsAdmission then
      let reason := c.closeReason.getD .protocolLocal
      ((s.countClose socket.reactor reason).releaseConnection, { socket with
          phase := .gone
          releases := socket.releases + 1
          latches := c.latches
          counted := socket.counted ++ [reason] })
    else (s, { socket with phase := .gone, latches := c.latches })
  else (s, { socket with phase := .connected c })

def callback (cb : Connection.Callback) (s : Shared) (socket : Socket) (c : Connection) :
    Shared × Socket :=
  match cb with
  | .other _ => (s, { socket with phase := .connected (c.handle cb) })
  | _ => finishCloseIfReady s socket (c.handle cb)

def act (s : Shared) (socket : Socket) (action : Action) : Shared × Socket :=
  match action, socket.phase with
  | .load, .accepted => (s, { socket with phase := .trying s.admitted })
  | .exchange spurious, .trying current => exchange spurious s socket current
  | .setup fails, .setup step => setup fails s socket step
  | .callback cb, .connected c => callback cb s socket c
  | _, _ => (s, socket)

abbrev Server := Pool Shared Socket

def step : Server → Pool.Event (ℕ × Bool) Action → Server := Pool.step accept act

def start (maxConnections : ℕ) : Server := ⟨{ maxConnections }, []⟩

/-- A socket holds a claim from the exchange until it is given up or the connection is gone. -/
def Socket.holds (socket : Socket) : Bool :=
  match socket.phase with
  | .setup _ => true
  | .connected c => c.ownsAdmission
  | _ => false

def Connection.inFlight (c : Connection) : Bool :=
  c.readActive || c.pendingWrites != 0 || c.readCancelSubmitted || c.writeCancelSubmitted ||
    c.closeSubmitted && !c.closeCompleted

/-! ## Connections -/

namespace Connection

structure Sound (c : Connection) : Prop where
  owns : c.ownsAdmission = true
  reason : c.closeReason = c.latches.head?
  latched : c.closing = true → c.latches ≠ []
  submitted : c.closeSubmitted = true → c.closing = true
  completed : c.closeCompleted = true → c.closeSubmitted = true
  readCancel : c.readCancelSubmitted = true → c.closing = true
  writeCancel : c.writeCancelSubmitted = true → c.closing = true

/-- A closing connection has submitted the close or has something left that will. -/
def Submitted (c : Connection) : Prop :=
  c.closing = true → (c.closeSubmitted || c.readActive || c.pendingWrites != 0) = true

variable {c : Connection}

theorem Sound.latchCloseReason (hc : c.Sound) (reason : CloseReason) :
    (c.latchCloseReason reason).Sound := by
  refine { hc with reason := ?_, latched := ?_ }
  · have hreason := hc.reason
    simp only [Connection.latchCloseReason]
    cases hlatches : c.latches with
    | nil | cons => simp [hreason, hlatches]
  · simp [Connection.latchCloseReason]

theorem Sound.submitCloseIfReady (hc : c.Sound) (hclosing : c.closing = true) :
    c.submitCloseIfReady.Sound := by
  unfold Connection.submitCloseIfReady
  split
  · exact hc
  · exact { hc with submitted := fun _ => hclosing, completed := fun _ => rfl }

theorem submitCloseIfReady_submitted (c : Connection) : c.submitCloseIfReady.Submitted := by
  intro _
  unfold submitCloseIfReady
  split
  · assumption
  · rfl

theorem Sound.cancelWrites (hc : c.Sound) (hclosing : c.closing = true) (inWrite : Bool) :
    (c.cancelWrites inWrite).Sound ∧ (c.cancelWrites inWrite).closing = true := by
  unfold Connection.cancelWrites
  split
  · exact ⟨hc, hclosing⟩
  · split
    · exact ⟨{ hc with }, hclosing⟩
    · exact ⟨{ hc with writeCancel := fun _ => hclosing }, hclosing⟩

theorem Sound.closeOnLoop (hc : c.Sound) (inWrite : Bool) : (c.closeOnLoop inWrite).Sound := by
  have hlatched := hc.latchCloseReason .protocolLocal
  unfold Connection.closeOnLoop
  dsimp only
  split
  · exact hlatched
  · have hclosing : Sound { c.latchCloseReason .protocolLocal with
        closing := true
        readCancelSubmitted := (c.latchCloseReason .protocolLocal).readCancelSubmitted ||
          (c.latchCloseReason .protocolLocal).readActive } :=
      { hlatched with
        latched := fun _ => by simp [Connection.latchCloseReason]
        submitted := fun _ => rfl
        readCancel := fun _ => rfl
        writeCancel := fun _ => rfl }
    obtain ⟨hcanceled, hstill⟩ := hclosing.cancelWrites rfl inWrite
    exact hcanceled.submitCloseIfReady hstill

@[simp] theorem latchCloseReason_closing (c : Connection) (reason : CloseReason) :
    (c.latchCloseReason reason).closing = c.closing := rfl

@[simp] theorem submitCloseIfReady_closing (c : Connection) :
    c.submitCloseIfReady.closing = c.closing := by
  unfold submitCloseIfReady
  split <;> rfl

@[simp] theorem cancelWrites_closing (c : Connection) (inWrite : Bool) :
    (c.cancelWrites inWrite).closing = c.closing := by
  unfold cancelWrites
  split
  · rfl
  · split <;> rfl

@[simp] theorem closeOnLoop_closing (c : Connection) (inWrite : Bool) :
    (c.closeOnLoop inWrite).closing = true := by
  unfold closeOnLoop
  dsimp only
  split
  · assumption
  · simp

theorem Submitted.closeOnLoop (hc : c.Submitted) (inWrite : Bool) :
    (c.closeOnLoop inWrite).Submitted := by
  unfold Connection.closeOnLoop
  dsimp only
  split
  · exact hc
  · exact submitCloseIfReady_submitted _

@[simp] theorem latchCloseReason_isFinished (c : Connection) (reason : CloseReason) :
    (c.latchCloseReason reason).isFinished = c.isFinished := rfl

@[simp] theorem submitCloseIfReady_isFinished (c : Connection) :
    c.submitCloseIfReady.isFinished = c.isFinished := by
  unfold submitCloseIfReady
  split <;> rfl

theorem cancelWrites_isFinished (hc : c.isFinished = false) :
    (c.cancelWrites false).isFinished = false := by
  unfold cancelWrites
  split
  · exact hc
  · simp [isFinished]

theorem closeOnLoop_isFinished (hc : c.isFinished = false) :
    (c.closeOnLoop false).isFinished = false := by
  unfold closeOnLoop
  dsimp only
  split
  · exact hc
  · rw [submitCloseIfReady_isFinished]
    refine cancelWrites_isFinished ?_
    simp only [isFinished, latchCloseReason] at hc ⊢
    cases hread : c.readActive <;> simp_all

/-! ### Calls -/

theorem Sound.closeGracefully (hc : c.Sound) (notify : Option ℕ) :
    (c.closeGracefully notify).Sound := by
  have hlatched := hc.latchCloseReason .protocolLocal
  unfold Connection.closeGracefully
  split
  · exact hc
  · cases notify with
    | none => exact hlatched.closeOnLoop false
    | some writes =>
      have hqueued : Sound { c.latchCloseReason .protocolLocal with
          pendingWrites := (c.latchCloseReason .protocolLocal).pendingWrites + writes
          closeAfterWrites := true } := { hlatched with }
      dsimp only
      split
      · exact hqueued.closeOnLoop false
      · exact hqueued

/-- A connection that a call leaves alive: what holds it back is not taken away. -/
structure Alive (c : Connection) : Prop where
  submitted : c.Submitted
  unfinished : c.isFinished = false

theorem Alive.closeOnLoop (hc : c.Alive) : (c.closeOnLoop false).Alive :=
  ⟨hc.submitted.closeOnLoop false, closeOnLoop_isFinished hc.unfinished⟩

theorem Alive.closeGracefully (hc : c.Alive) (notify : Option ℕ) :
    (c.closeGracefully notify).Alive := by
  unfold Connection.closeGracefully
  split
  · exact hc
  · rename_i hgoes
    have hclosing : c.closing = false := by
      revert hgoes
      cases c.closing <;> simp
    cases notify with
    | none =>
      exact closeOnLoop (c := c.latchCloseReason .protocolLocal) ⟨hc.submitted, hc.unfinished⟩
    | some writes =>
      have hqueued : Alive { c.latchCloseReason .protocolLocal with
          pendingWrites := (c.latchCloseReason .protocolLocal).pendingWrites + writes
          closeAfterWrites := true } := by
        refine ⟨by simp [Submitted, hclosing], ?_⟩
        have hunfinished := hc.unfinished
        simp only [isFinished, latchCloseReason] at hunfinished ⊢
        cases hpending : c.pendingWrites <;> cases writes <;> simp_all
      dsimp only
      split
      · exact hqueued.closeOnLoop
      · exact hqueued

theorem Sound.apply (hc : c.Sound) (effect : Effect) : (c.apply effect).Sound := by
  cases effect with
  | latchCloseReason reason => exact hc.latchCloseReason reason
  | closeOnLoop => exact hc.closeOnLoop false
  | closeGracefully notify => exact hc.closeGracefully notify
  | queueWrite => exact { hc with }
  | startRead =>
    simp only [Connection.apply, startRead]
    split
    · exact hc
    · exact { hc with }

theorem Alive.apply (hc : c.Alive) (effect : Effect) : (c.apply effect).Alive := by
  cases effect with
  | latchCloseReason => exact ⟨hc.submitted, hc.unfinished⟩
  | closeOnLoop => exact hc.closeOnLoop
  | closeGracefully notify => exact hc.closeGracefully notify
  | queueWrite => constructor <;> simp [Submitted, Connection.apply, queueWrite, isFinished]
  | startRead =>
    simp only [Connection.apply, startRead]
    split
    · exact hc
    · constructor <;> simp [Submitted, isFinished]

theorem applyAll_keeps {P : Connection → Prop} (happly : ∀ c effect, P c → P (c.apply effect))
    (hc : P c) (effects : List Effect) : P (c.applyAll effects) := by
  unfold applyAll
  induction effects generalizing c with
  | nil => exact hc
  | cons effect rest ih => exact ih (happly c effect hc)

theorem Sound.applyAll (hc : c.Sound) (effects : List Effect) : (c.applyAll effects).Sound :=
  applyAll_keeps (fun _ effect h => h.apply effect) hc effects

theorem Alive.applyAll (hc : c.Alive) (effects : List Effect) : (c.applyAll effects).Alive :=
  applyAll_keeps (fun _ effect h => h.apply effect) hc effects

/-! ### Callbacks -/

structure Kept (c : Connection) : Prop where
  sound : c.Sound
  submitted : c.Submitted

theorem Kept.submitCloseIfReady (hc : c.Sound) (hclosing : c.closing = true) :
    c.submitCloseIfReady.Kept :=
  ⟨hc.submitCloseIfReady hclosing, submitCloseIfReady_submitted c⟩

theorem Sound.onRead (hc : c.Sound) (fails : Bool) (effects : List Effect) :
    (c.onRead fails effects).Kept := by
  have hidle : Sound { c with readActive := false } := { hc with }
  unfold Connection.onRead
  dsimp only
  split
  · have hclosed := (hidle.latchCloseReason .peerTransport).closeOnLoop false
    exact .submitCloseIfReady hclosed (closeOnLoop_closing _ _)
  · have happlied := hidle.applyAll effects
    split
    · rename_i hclosing
      exact .submitCloseIfReady happlied hclosing
    · rename_i hclosing
      exact ⟨happlied, fun h => absurd h hclosing⟩

theorem Sound.onWrite (hc : c.Sound) (fails low notifyFails : Bool) :
    (c.onWrite fails low notifyFails).Kept := by
  have hwritten : Sound { c with pendingWrites := c.pendingWrites - 1 } := { hc with }
  unfold Connection.onWrite
  dsimp only
  split
  · rename_i hclosing
    exact .submitCloseIfReady { hc with } hclosing
  · rename_i hclosing
    have hopen : Submitted { c with pendingWrites := c.pendingWrites - 1 } :=
      fun h => absurd h hclosing
    split
    · exact ⟨(hwritten.latchCloseReason .peerTransport).closeOnLoop true,
        Submitted.closeOnLoop (c := Connection.latchCloseReason .peerTransport
          { c with pendingWrites := c.pendingWrites - 1 }) hopen true⟩
    split
    · exact ⟨hwritten.closeOnLoop true, hopen.closeOnLoop true⟩
    split
    · exact ⟨hwritten.closeOnLoop true, hopen.closeOnLoop true⟩
    · exact ⟨hwritten, hopen⟩

theorem Kept.onWriteCanceled (hc : c.Kept) (hclosing : c.closing = true) (notFound : Bool) :
    (c.onWriteCanceled notFound).Kept := by
  unfold Connection.onWriteCanceled
  split
  · exact hc
  · exact .submitCloseIfReady { hc.sound with writeCancel := nofun } hclosing

theorem Kept.handle (hc : c.Kept) (hopen : c.isFinished = false) (cb : Callback) :
    (c.handle cb).Kept := by
  cases cb with
  | other effects =>
    exact ⟨hc.sound.applyAll effects, (Alive.applyAll ⟨hc.submitted, hopen⟩ effects).submitted⟩
  | read fails effects =>
    simp only [Connection.handle]
    split
    · exact hc.sound.onRead fails effects
    · exact hc
  | write fails low notifyFails =>
    simp only [Connection.handle]
    split
    · exact hc
    · exact hc.sound.onWrite fails low notifyFails
  | readCanceled =>
    simp only [Connection.handle]
    split
    · rename_i hcancel
      exact .submitCloseIfReady { hc.sound with readCancel := nofun } (hc.sound.readCancel hcancel)
    · exact hc
  | writeCanceled notFound =>
    simp only [Connection.handle]
    split
    · rename_i hcancel
      exact hc.onWriteCanceled (hc.sound.writeCancel hcancel) notFound
    · exact hc
  | closed =>
    simp only [Connection.handle]
    split
    · have hclose : c.closeSubmitted = true := by simp_all
      exact ⟨{ hc.sound with completed := fun _ => hclose }, hc.submitted⟩
    · exact hc

theorem Kept.inFlight (hc : c.Kept) (hopen : c.isFinished = false) (hclosing : c.closing = true) :
    c.inFlight = true := by
  have hsubmitted := hc.submitted hclosing
  unfold isFinished at hopen
  unfold Connection.inFlight
  cases hread : c.readActive with
  | true => rfl
  | false =>
    by_cases hpending : c.pendingWrites = 0
    · have hclose : c.closeSubmitted = true := by simpa [hread, hpending] using hsubmitted
      cases hcomplete : c.closeCompleted with
      | false => simp [hclose]
      | true =>
        cases hcancel : c.readCancelSubmitted with
        | true => simp
        | false => simp_all
    · simp [hpending]

end Connection

/-! ## Sockets -/

def Socket.Sound (socket : Socket) : Prop :=
  match socket.phase with
  | .accepted | .trying _ =>
    socket.claims = 0 ∧ socket.releases = 0 ∧ socket.owned = false ∧ socket.counted = []
  | .setup _ => socket.claims = 1 ∧ socket.releases = 0 ∧ socket.owned = false ∧ socket.counted = []
  | .connected c =>
    socket.claims = 1 ∧ socket.releases = 0 ∧ socket.owned = true ∧ socket.counted = [] ∧
      c.Kept ∧ c.isFinished = false
  | .gone =>
    socket.claims ≤ 1 ∧ socket.releases = socket.claims ∧
      if socket.owned then ∃ reason, socket.latches.head? = some reason ∧ socket.counted = [reason]
      else socket.counted = []

theorem accept_sound (s : Shared) (k : ℕ × Bool) : (accept s k).2.Sound := by
  obtain ⟨reactor, isAccepting⟩ := k
  cases isAccepting with
  | true => exact ⟨rfl, rfl, rfl, rfl⟩
  | false => exact ⟨Nat.zero_le 1, rfl, rfl⟩

section Steps

variable {s : Shared} {socket : Socket}

theorem exchange_sound {current : ℕ} (hphase : socket.phase = .trying current)
    (hsocket : socket.Sound) (spurious : Bool) : (exchange spurious s socket current).2.Sound := by
  simp only [Socket.Sound, hphase] at hsocket
  obtain ⟨hclaims, hreleases, howned, hcounted⟩ := hsocket
  unfold exchange
  split
  · split
    · exact ⟨by simp [hclaims], hreleases, howned, hcounted⟩
    · exact ⟨hclaims, hreleases, howned, hcounted⟩
  · exact ⟨by simp [hclaims], by simp [hclaims, hreleases], by simp [howned, hcounted]⟩

theorem setup_sound {step : SetupStep} (hphase : socket.phase = .setup step)
    (hsocket : socket.Sound) (fails : Bool) : (setup fails s socket step).2.Sound := by
  simp only [Socket.Sound, hphase] at hsocket
  obtain ⟨hclaims, hreleases, howned, hcounted⟩ := hsocket
  unfold setup
  split
  · exact ⟨by simp [hclaims], by simp [hclaims, hreleases], by simp [howned, hcounted]⟩
  · cases step with
    | noDelay | create => exact ⟨hclaims, hreleases, howned, hcounted⟩
    | append =>
      refine ⟨hclaims, hreleases, rfl, hcounted, ⟨?_, nofun⟩, rfl⟩
      exact ⟨rfl, rfl, nofun, nofun, nofun, nofun, nofun⟩

variable {c : Connection} {reactor : ℕ} {reason : CloseReason}

theorem finishCloseIfReady_sound (hclaims : socket.claims = 1) (hreleases : socket.releases = 0)
    (howned : socket.owned = true) (hcounted : socket.counted = []) (hc : c.Kept) :
    (finishCloseIfReady s socket c).2.Sound := by
  unfold finishCloseIfReady
  split
  · rename_i hfinished
    rw [if_pos hc.sound.owns]
    refine ⟨by simp [hclaims], by simp [hclaims, hreleases], ?_⟩
    have hcomplete : c.closeCompleted = true := by
      revert hfinished
      unfold Connection.isFinished
      cases c.closeCompleted <;> simp
    have hlatches := hc.sound.latched (hc.sound.submitted (hc.sound.completed hcomplete))
    obtain ⟨reason, hreason⟩ :=
      Option.ne_none_iff_exists'.mp (mt List.head?_eq_none_iff.mp hlatches)
    simp only [howned, if_true]
    exact ⟨reason, hreason, by simp [hcounted, hc.sound.reason, hreason]⟩
  · rename_i hopen
    exact ⟨hclaims, hreleases, howned, hcounted, hc, by simpa using hopen⟩

theorem callback_sound (hphase : socket.phase = .connected c) (hsocket : socket.Sound)
    (cb : Connection.Callback) : (callback cb s socket c).2.Sound := by
  simp only [Socket.Sound, hphase] at hsocket
  obtain ⟨hclaims, hreleases, howned, hcounted, hc, hopen⟩ := hsocket
  have hkept := hc.handle hopen cb
  cases cb with
  | other effects =>
    exact ⟨hclaims, hreleases, howned, hcounted, hkept,
      (Connection.Alive.applyAll ⟨hc.submitted, hopen⟩ effects).unfinished⟩
  | read | write | readCanceled | writeCanceled | closed =>
    exact finishCloseIfReady_sound hclaims hreleases howned hcounted hkept

theorem act_sound (s : Shared) (socket : Socket) (action : Action) (hsocket : socket.Sound) :
    (act s socket action).2.Sound := by
  unfold act
  split
  · rename_i hphase
    simpa only [Socket.Sound, hphase] using hsocket
  · rename_i spurious current hphase
    exact exchange_sound hphase hsocket spurious
  · rename_i fails step hphase
    exact setup_sound hphase hsocket fails
  · rename_i cb c hphase
    exact callback_sound hphase hsocket cb
  · exact hsocket

/-! ## The shared counters -/

def Counts (maxConnections : ℕ) (s : Shared) (claims : ℕ) : Prop :=
  s.maxConnections = maxConnections ∧ s.admitted = claims ∧ claims ≤ maxConnections

def Socket.claim (socket : Socket) : ℕ := if socket.holds then 1 else 0

theorem finishCloseIfReady_counts {maxConnections others : ℕ} (howns : c.ownsAdmission = true)
    (hs : Counts maxConnections s (others + 1)) :
    Counts maxConnections (finishCloseIfReady s socket c).1
      (others + (finishCloseIfReady s socket c).2.claim) := by
  obtain ⟨hmax, hadmitted, hle⟩ := hs
  unfold finishCloseIfReady
  split
  · refine ⟨hmax, ?_, Nat.le_trans (Nat.le_succ others) hle⟩
    simp [Shared.releaseConnection, Shared.countClose, hadmitted, Socket.claim, Socket.holds]
  · exact ⟨hmax, by simp [Socket.claim, Socket.holds, howns, hadmitted],
      by simpa [Socket.claim, Socket.holds, howns] using hle⟩

theorem act_counts {maxConnections : ℕ} (s : Shared) (socket : Socket) (action : Action)
    (others : ℕ) (hsocket : socket.Sound) (hs : Counts maxConnections s (others + socket.claim)) :
    Counts maxConnections (act s socket action).1 (others + (act s socket action).2.claim) := by
  unfold act
  split
  · rename_i hphase
    simpa [Socket.claim, Socket.holds, hphase] using hs
  · rename_i hphase
    have hbefore : socket.claim = 0 := by simp [Socket.claim, Socket.holds, hphase]
    rw [hbefore] at hs
    unfold exchange
    split
    · split
      · obtain ⟨hmax, hadmitted, -⟩ := hs
        refine ⟨hmax, ?_, ?_⟩
        · simp [Socket.claim, Socket.holds, hadmitted]
        · simp only [Socket.claim, Socket.holds, if_true]
          omega
      · exact hs
    · exact hs
  · rename_i step hphase
    have hbefore : socket.claim = 1 := by simp [Socket.claim, Socket.holds, hphase]
    rw [hbefore] at hs
    unfold setup
    split
    · obtain ⟨hmax, hadmitted, hle⟩ := hs
      refine ⟨hmax, ?_, Nat.le_trans (Nat.le_succ others) hle⟩
      simp [Shared.releaseConnection, hadmitted, Socket.claim, Socket.holds]
    · cases step with
      | noDelay | create | append => exact hs
  · rename_i cb c hphase
    simp only [Socket.Sound, hphase] at hsocket
    obtain ⟨-, -, -, -, hc, hopen⟩ := hsocket
    have hbefore : socket.claim = 1 := by simp [Socket.claim, Socket.holds, hphase, hc.sound.owns]
    rw [hbefore] at hs
    have howns := (hc.handle hopen cb).sound.owns
    cases cb with
    | other => simpa [callback, Socket.claim, Socket.holds, howns] using hs
    | read | write | readCanceled | writeCanceled | closed =>
      exact finishCloseIfReady_counts howns hs
  · exact hs

/-- How often the socket has been counted under the reason by the reactor. -/
def Socket.closesUnder (reactor : ℕ) (reason : CloseReason) (socket : Socket) : ℕ :=
  if socket.reactor = reactor then socket.counted.count reason else 0

/-- The counter of the reactor saturates. -/
def Tallies (reactor : ℕ) (reason : CloseReason) (s : Shared) (n : ℕ) : Prop :=
  s.closes reactor reason = min n maxU64

theorem Tallies.countClose {n : ℕ} (hs : Tallies reactor reason s n) (reactor' : ℕ)
    (reason' : CloseReason) :
    Tallies reactor reason (s.countClose reactor' reason')
      (n + if reactor' = reactor then [reason'].count reason else 0) := by
  unfold Tallies Shared.countClose at *
  by_cases hreactor : reactor' = reactor
  · subst hreactor
    by_cases hreason : reason' = reason
    · subst hreason
      simp only [Function.update_self, satAdd, hs, if_true, List.count_singleton_self]
      omega
    · have hne : reason ≠ reason' := fun h => hreason h.symm
      simp [Function.update_of_ne hne, hs, hreason]
  · have hne : reactor ≠ reactor' := fun h => hreactor h.symm
    simp [Function.update_of_ne hne, hs, hreactor]

theorem finishCloseIfReady_tallies {others : ℕ}
    (hs : Tallies reactor reason s (others + socket.closesUnder reactor reason)) :
    Tallies reactor reason (finishCloseIfReady s socket c).1
      (others + (finishCloseIfReady s socket c).2.closesUnder reactor reason) := by
  unfold finishCloseIfReady
  split
  · split
    · have hcounted := hs.countClose socket.reactor (c.closeReason.getD .protocolLocal)
      have hunder : (others + socket.closesUnder reactor reason) +
          (if socket.reactor = reactor then [c.closeReason.getD .protocolLocal].count reason
            else 0) =
          others + (if socket.reactor = reactor then
            (socket.counted ++ [c.closeReason.getD .protocolLocal]).count reason else 0) := by
        unfold Socket.closesUnder
        split
        · rw [List.count_append, Nat.add_assoc]
        · rfl
      rw [hunder] at hcounted
      exact hcounted
    · exact hs
  · exact hs

theorem act_tallies (s : Shared) (socket : Socket) (action : Action) (others : ℕ)
    (hs : Tallies reactor reason s (others + socket.closesUnder reactor reason)) :
    Tallies reactor reason (act s socket action).1
      (others + (act s socket action).2.closesUnder reactor reason) := by
  unfold act
  split
  · exact hs
  · unfold exchange
    split
    · split <;> exact hs
    · exact hs
  · rename_i step _
    unfold setup
    split
    · exact hs
    · cases step <;> exact hs
  · rename_i cb c _
    cases cb with
    | other => exact hs
    | read | write | readCanceled | writeCanceled | closed => exact finishCloseIfReady_tallies hs
  · exact hs

end Steps

theorem start_sound (maxConnections : ℕ) :
    ∀ socket ∈ (start maxConnections).members, socket.Sound :=
  List.forall_mem_nil _

theorem accept_closesUnder (reactor : ℕ) (reason : CloseReason) (s : Shared) (k : ℕ × Bool) :
    (accept s k).2.closesUnder reactor reason = 0 := by
  unfold Socket.closesUnder
  split <;> rfl

theorem accept_claim (s : Shared) (k : ℕ × Bool) : (accept s k).2.claim = 0 := by
  obtain ⟨reactor, isAccepting⟩ := k
  cases isAccepting <;> rfl

theorem Socket.Sound.claims_eq {socket : Socket} (hsocket : socket.Sound) :
    socket.claims ≤ 1 ∧ socket.claims = socket.releases + (if socket.holds then 1 else 0) := by
  unfold Socket.Sound at hsocket
  unfold Socket.holds
  cases hphase : socket.phase with
  | accepted | trying | setup =>
    simp only [hphase] at hsocket
    obtain ⟨hclaims, hreleases, -⟩ := hsocket
    simp [hclaims, hreleases]
  | connected =>
    simp only [hphase] at hsocket
    obtain ⟨hclaims, hreleases, -, -, hc, -⟩ := hsocket
    simp [hclaims, hreleases, hc.sound.owns]
  | gone =>
    simp only [hphase] at hsocket
    exact ⟨hsocket.1, hsocket.2.1.symm⟩

theorem Socket.Sound.counted_eq {socket : Socket} (hsocket : socket.Sound) :
    if socket.phase = .gone ∧ socket.owned = true then
      ∃ reason, socket.latches.head? = some reason ∧ socket.counted = [reason]
    else socket.counted = [] := by
  unfold Socket.Sound at hsocket
  cases hphase : socket.phase with
  | accepted | trying | setup | connected =>
    simp only [hphase] at hsocket
    simp [hsocket]
  | gone =>
    simp only [hphase] at hsocket
    simpa using hsocket.2.2

/-- Over every interleaving of the reactors, the counter of admitted connections is the number of
sockets that hold a claim and stays within the limit.  A socket claims at most once and gives its
claim back once, when it no longer holds it; a closing connection still waits for a callback, so
that it gets there.  A connection that owned its admission is counted under the first reason
latched, and the counters of a reactor are the numbers of its connections counted so. -/
theorem connection_admission (maxConnections : ℕ)
    (events : List (Pool.Event (ℕ × Bool) Action)) :
    let server := Run.final step (start maxConnections) events
    (server.shared.admitted = server.members.countP Socket.holds ∧
      server.shared.admitted ≤ maxConnections) ∧
    (∀ socket ∈ server.members, socket.claims ≤ 1 ∧
      socket.claims = socket.releases + (if socket.holds then 1 else 0)) ∧
    (∀ socket ∈ server.members, ∀ c, socket.phase = .connected c → c.closing = true →
      c.inFlight = true) ∧
    (∀ socket ∈ server.members,
      if socket.phase = .gone ∧ socket.owned = true then
        ∃ reason, socket.latches.head? = some reason ∧ socket.counted = [reason]
      else socket.counted = []) ∧
    ∀ reactor reason, server.shared.closes reactor reason =
      min (Pool.total (Socket.closesUnder reactor reason) server.members) maxU64 := by
  intro server
  have hsound : ∀ socket ∈ server.members, socket.Sound :=
    Pool.members_invariant accept_sound act_sound (start_sound maxConnections) events
  have hcounts : Counts maxConnections server.shared (Pool.total Socket.claim server.members) := by
    refine Pool.accounts_invariant ⊤ (fun _ _ => trivial) accept_sound act_sound ?_
      (fun s socket action n _ => act_counts s socket action n) (start_sound maxConnections)
      ⟨rfl, rfl, Nat.zero_le _⟩ events
    intro s k n _ hs
    rwa [accept_claim]
  refine ⟨?_, ?_, ?_, ?_, ?_⟩
  · obtain ⟨-, hadmitted, hle⟩ := hcounts
    rw [hadmitted]
    exact ⟨Pool.total_eq_countP Socket.holds server.members, hle⟩
  · intro socket hsocket
    exact (hsound socket hsocket).claims_eq
  · intro socket hsocket c hphase hclosing
    have hs := hsound socket hsocket
    simp only [Socket.Sound, hphase] at hs
    obtain ⟨-, -, -, -, hc, hopen⟩ := hs
    exact hc.inFlight hopen hclosing
  · intro socket hsocket
    exact (hsound socket hsocket).counted_eq
  · intro reactor reason
    refine Pool.accounts_invariant (R := Tallies reactor reason) ⊤ (fun _ _ => trivial) accept_sound
      act_sound ?_ (fun s socket action n _ _ hs => act_tallies s socket action n hs)
      (start_sound maxConnections) rfl events
    intro s k n _ hs
    rwa [accept_closesUnder]

-- Two reactors compete for one admission: the second socket is turned away until the first
-- connection, which the peer closes while it is being drained, is gone.
example :
    let server := Run.final step (start 1)
      [.join (0, true), .join (1, true), .act 0 .load, .act 1 .load, .act 1 (.exchange true),
        .act 0 (.exchange false), .act 1 (.exchange false), .act 1 (.exchange false),
        .act 0 (.setup false), .act 0 (.setup false), .act 0 (.setup false),
        .act 0 (.callback (.other [.startRead, .latchCloseReason .gracefulDrain])),
        .act 0 (.callback (.read true [])), .act 0 (.callback .closed)]
    server.shared.admitted = 0 ∧ server.shared.rejected 1 = 1 ∧
      server.shared.closes 0 .gracefulDrain = 1 ∧ server.shared.closes 0 .peerTransport = 0 := by
  decide

end GrpcLite.Admission
