import GrpcLite.Lib.IndexedHeap
import GrpcLite.Lib.Run
import GrpcLite.Wire.Status
import Mathlib.Order.Nat

/-!
# Connection deadlines

The deadlines of the connections of one reactor.  A connection has one deadline slot, which serves
the TLS handshake, the cleartext preface and idleness one after the other, and at most one entry in
the reactor's deadline heap, which it shares with the streams.  An event is one callback; a failing
callback closes its connection.  nghttp2 takes no bytes before the handshake is over and reports no
stream before the client's first SETTINGS.
-/

namespace GrpcLite.Deadlines

inductive DeadlineTarget where
  | stream (connection id : ℕ)
  | connection (id : ℕ)
  deriving DecidableEq, Repr

abbrev DeadlineHeap := IndexedHeap ℕ DeadlineTarget

inductive ConnectionDeadlineKind where
  | tlsHandshake
  | cleartextPreface
  | idle
  deriving DecidableEq, Repr

structure ConnectionDeadline where
  kind : ConnectionDeadlineKind
  expiresAt : ℕ
  deriving DecidableEq, Repr

structure Config where
  tlsHandshakeTimeout : ℕ
  cleartextPrefaceTimeout : ℕ
  connectionIdleTimeout : ℕ
  maxConcurrentStreams : ℕ
  deriving DecidableEq, Repr

/-- The last two fields are history: whether the preface or the handshake is done, and when that
was or, later, when nghttp2 last reported a closed stream. -/
structure Connection where
  tlsHandshaking : Bool := false
  closing : Bool := false
  draining : Bool := false
  streams : List ℕ := []
  deadline : Option ConnectionDeadline := none
  established : Bool := false
  quietSince : ℕ := 0
  deriving DecidableEq, Repr

/-- `running` says that the server runs and that no shutdown is requested; `acceptedAt` is
history. -/
structure Reactor where
  config : Config
  running : Bool := true
  heap : DeadlineHeap := {}
  connections : ℕ → Option Connection := fun _ => none
  next : ℕ := 0
  acceptedAt : ℕ → ℕ := fun _ => 0

/-! ## One connection and the heap -/

section Operations

variable (config : Config) (running : Bool) (id : ℕ)

def clearConnectionDeadline (heap : DeadlineHeap) (c : Connection) : DeadlineHeap × Connection :=
  ((heap.remove (.connection id)).1, { c with deadline := none })

def setConnectionDeadline (kind : ConnectionDeadlineKind) (expiresAt : ℕ) (oom : Bool)
    (heap : DeadlineHeap) (c : Connection) : Option (DeadlineHeap × Connection) :=
  (heap.insertOrUpdate (.connection id) expiresAt oom).map fun heap =>
    (heap, { c with deadline := some ⟨kind, expiresAt⟩ })

def armIdleDeadline (now : ℕ) (oom : Bool) (heap : DeadlineHeap) (c : Connection) :
    Option (DeadlineHeap × Connection) :=
  if c.closing || c.draining || !c.streams.isEmpty || !running then some (heap, c)
  else setConnectionDeadline id .idle (satAdd now config.connectionIdleTimeout) oom heap c

def closeOnLoop (heap : DeadlineHeap) (c : Connection) : DeadlineHeap × Connection :=
  let (heap, c) := clearConnectionDeadline id heap c
  (heap, { c with closing := true })

/-- A callback that arms the idle deadline; the connection closes when it fails. -/
def armIdleOrClose (now : ℕ) (oom : Bool) (heap : DeadlineHeap) (c : Connection) :
    DeadlineHeap × Connection :=
  (armIdleDeadline config running id now oom heap c).getD (closeOnLoop id heap c)

/-- The end of `onConnection`; `setupFails` says whether the session cannot be set up. -/
def accept (tls setupFails : Bool) (now : ℕ) (oom : Bool) (heap : DeadlineHeap) :
    DeadlineHeap × Connection :=
  let c : Connection := {}
  if setupFails then closeOnLoop id heap c
  else if tls then
    let c := { c with tlsHandshaking := true }
    (setConnectionDeadline id .tlsHandshake (satAdd now config.tlsHandshakeTimeout) oom heap c).getD
      (closeOnLoop id heap c)
  else
    (setConnectionDeadline id .cleartextPreface (satAdd now config.cleartextPrefaceTimeout) oom
      heap c).getD (closeOnLoop id heap c)

def handshakeComplete (now : ℕ) (oom : Bool) (heap : DeadlineHeap) (c : Connection) :
    DeadlineHeap × Connection :=
  if c.tlsHandshaking then
    let (heap, c) := clearConnectionDeadline id heap { c with tlsHandshaking := false }
    armIdleOrClose config running id now oom heap { c with established := true, quietSince := now }
  else (heap, c)

inductive StreamlessFrame where
  | settings (ack : Bool)
  | ping
  | goaway
  | windowUpdate
  | unknown
  deriving DecidableEq, Repr

def onFrameReceived (frame : StreamlessFrame) (now : ℕ) (oom : Bool) (heap : DeadlineHeap)
    (c : Connection) : DeadlineHeap × Connection :=
  if c.tlsHandshaking then (heap, c)
  else
    match frame with
    | .settings false =>
      let established := { c with
        established := true
        quietSince := if c.established then c.quietSince else now }
      match c.deadline with
      | some ⟨.cleartextPreface, _⟩ =>
        let (heap, c) := clearConnectionDeadline id heap established
        armIdleOrClose config running id now oom heap c
      | _ => (heap, established)
    | _ => (heap, c)

/-- `oom` says whether the stream cannot be created. -/
def onBeginHeaders (stream : ℕ) (oom : Bool) (heap : DeadlineHeap) (c : Connection) :
    DeadlineHeap × Connection :=
  if !c.established || c.draining || decide (config.maxConcurrentStreams ≤ c.streams.length) then
    (heap, c)
  else if oom then closeOnLoop id heap c
  else
    let c := { c with streams := stream :: c.streams.erase stream }
    match c.deadline with
    | some ⟨.idle, _⟩ => clearConnectionDeadline id heap c
    | _ => (heap, c)

/-- A stream that was refused is closed without having been in the map. -/
def onStreamClose (stream now : ℕ) (oom : Bool) (heap : DeadlineHeap) (c : Connection) :
    DeadlineHeap × Connection :=
  if !c.established then (heap, c)
  else
    let c := { c with streams := c.streams.erase stream, quietSince := now }
    let heap := (heap.remove (.stream id stream)).1
    if c.draining then (heap, c)
    else if c.streams.isEmpty then armIdleOrClose config running id now oom heap c
    else (heap, c)

/-- `expireDeadlines` for an entry of the connection that has been popped. -/
def expireConnection (key : ℕ) (heap : DeadlineHeap) (c : Connection) :
    DeadlineHeap × Connection :=
  match c.deadline with
  | none => (heap, c)
  | some value =>
    if value.expiresAt ≠ key then (heap, c)
    else
      let c := { c with deadline := none }
      if c.closing || !running then (heap, c)
      else
        match value.kind with
        | .tlsHandshake => if c.tlsHandshaking then closeOnLoop id heap c else (heap, c)
        | .cleartextPreface => closeOnLoop id heap c
        | .idle =>
          if !c.streams.isEmpty || c.draining then (heap, c)
          else (heap, { c with draining := true })

def beginDrain (listenerClosed : Bool) (heap : DeadlineHeap) (c : Connection) :
    DeadlineHeap × Connection :=
  let (heap, c) :=
    match c.deadline with
    | some ⟨.tlsHandshake, _⟩ | none => (heap, c)
    | some _ => clearConnectionDeadline id heap c
  if !listenerClosed || c.draining || c.closing then (heap, c)
  else if c.tlsHandshaking then closeOnLoop id heap c
  else (heap, { c with draining := true })

end Operations

/-! ## The reactor -/

inductive Event where
  | accept (tls setupFails : Bool) (now : ℕ) (oom : Bool)
  | handshakeComplete (id now : ℕ) (oom : Bool)
  | frame (id : ℕ) (frame : StreamlessFrame) (now : ℕ) (oom : Bool)
  | beginHeaders (id stream : ℕ) (oom : Bool)
  | streamClose (id stream now : ℕ) (oom : Bool)
  | setStreamDeadline (id stream expiresAt : ℕ) (oom : Bool)
  | removeStreamDeadline (id stream : ℕ)
  | close (id : ℕ)
  | finishClose (id : ℕ)
  | expire (now : ℕ)
  | shutdown
  | beginDrain (id : ℕ) (listenerClosed : Bool)
  deriving DecidableEq, Repr

def Reactor.update (r : Reactor) (id : ℕ)
    (callback : DeadlineHeap → Connection → DeadlineHeap × Connection) : Reactor :=
  match r.connections id with
  | none => r
  | some c =>
    { r with
      heap := (callback r.heap c).1
      connections := Function.update r.connections id (some (callback r.heap c).2) }

def Reactor.finishClose (r : Reactor) (id : ℕ) : Reactor :=
  match r.connections id with
  | none => r
  | some c =>
    if c.closing then
      let heap := (r.heap.remove (.connection id)).1
      { r with
        heap := c.streams.foldl (fun heap stream => (heap.remove (.stream id stream)).1) heap
        connections := Function.update r.connections id none }
    else r

/-- One round of the loop of `expireDeadlines`.  What becomes of a stream whose deadline expires
leaves the connection deadlines alone. -/
def Reactor.expire (r : Reactor) (now : ℕ) : Reactor :=
  match r.heap.pop with
  | none => r
  | some (entry, heap) =>
    if now < entry.key then r
    else
      match entry.target with
      | .stream _ _ => { r with heap := heap }
      | .connection id =>
        Reactor.update { r with heap := heap } id (expireConnection r.running id entry.key)

def step (r : Reactor) : Event → Reactor
  | .accept tls setupFails now oom =>
    let (heap, c) := accept r.config r.next tls setupFails now oom r.heap
    { r with
      heap := heap
      connections := Function.update r.connections r.next (some c)
      next := r.next + 1
      acceptedAt := Function.update r.acceptedAt r.next now }
  | .handshakeComplete id now oom => r.update id (handshakeComplete r.config r.running id now oom)
  | .frame id frame now oom => r.update id (onFrameReceived r.config r.running id frame now oom)
  | .beginHeaders id stream oom => r.update id (onBeginHeaders r.config id stream oom)
  | .streamClose id stream now oom =>
    r.update id (onStreamClose r.config r.running id stream now oom)
  | .setStreamDeadline id stream expiresAt oom =>
    match r.heap.insertOrUpdate (.stream id stream) expiresAt oom with
    | none => r
    | some heap => { r with heap := heap }
  | .removeStreamDeadline id stream => { r with heap := (r.heap.remove (.stream id stream)).1 }
  | .close id => r.update id (closeOnLoop id)
  | .finishClose id => r.finishClose id
  | .expire now => r.expire now
  | .shutdown => { r with running := false }
  | .beginDrain id listenerClosed =>
    if r.running then r else r.update id (beginDrain id listenerClosed)

def Reactor.start (config : Config) : Reactor := { config }

/-! ## The slot of a connection

While the server runs, the slot is a function of the rest of the connection. -/

def Connection.due (c : Connection) : ConnectionDeadlineKind :=
  if c.tlsHandshaking then .tlsHandshake
  else if c.established then .idle
  else .cleartextPreface

def Connection.dueAt (config : Config) (acceptedAt : ℕ) (c : Connection) : ℕ :=
  match c.due with
  | .tlsHandshake => satAdd acceptedAt config.tlsHandshakeTimeout
  | .cleartextPreface => satAdd acceptedAt config.cleartextPrefaceTimeout
  | .idle => satAdd c.quietSince config.connectionIdleTimeout

/-- A connection waits unless it has streams or is on its way out. -/
def Connection.awaited (config : Config) (acceptedAt : ℕ) (c : Connection) :
    Option ConnectionDeadline :=
  if c.closing || c.draining || !c.streams.isEmpty then none
  else some ⟨c.due, c.dueAt config acceptedAt⟩

structure Connection.Sound (config : Config) (acceptedAt : ℕ) (c : Connection) : Prop where
  early : c.established = false → c.streams = []
  handshaking : c.tlsHandshaking = true → c.established = false
  slot : c.deadline = c.awaited config acceptedAt

/-- The heap has the connection's slot, and the other connections' as before. -/
structure Holds (before : DeadlineHeap) (id : ℕ) (heap : DeadlineHeap)
    (slot : Option ConnectionDeadline) : Prop where
  indexed : heap.Indexed
  own : heap.find (.connection id) = slot.map (·.expiresAt)
  others : ∀ i, i ≠ id → heap.find (.connection i) = before.find (.connection i)

section Connections

variable {config : Config} {acceptedAt id : ℕ} {before heap : DeadlineHeap} {c : Connection}
  {slot : Option ConnectionDeadline}

theorem Holds.remove (hholds : Holds before id heap slot) :
    Holds before id (heap.remove (.connection id)).1 none := by
  obtain ⟨hindexed, hfind⟩ := hholds.indexed.remove (.connection id)
  refine ⟨hindexed, by simp [hfind], ?_⟩
  intro i hi
  rw [hfind, Function.update_of_ne (by simpa using hi), hholds.others i hi]

theorem Holds.removeStream (hholds : Holds before id heap slot) (connection stream : ℕ) :
    Holds before id (heap.remove (.stream connection stream)).1 slot := by
  obtain ⟨hindexed, hfind⟩ := hholds.indexed.remove (.stream connection stream)
  refine ⟨hindexed, by simp [hfind, hholds.own], ?_⟩
  intro i hi
  simp [hfind, hholds.others i hi]

variable {kind : ConnectionDeadlineKind} {expiresAt : ℕ}

theorem Holds.insert (hholds : Holds before id heap slot) {heap' : DeadlineHeap} {oom : Bool}
    (hinsert : heap.insertOrUpdate (.connection id) expiresAt oom = some heap') :
    Holds before id heap' (some ⟨kind, expiresAt⟩) := by
  obtain ⟨hindexed, hfind⟩ := hholds.indexed.insertOrUpdate hinsert
  refine ⟨hindexed, by simp [hfind], ?_⟩
  intro i hi
  rw [hfind, Function.update_of_ne (by simpa using hi), hholds.others i hi]

/-- A callback of the connection leaves a sound connection and its slot in the heap. -/
def Serves (config : Config) (acceptedAt : ℕ) (before : DeadlineHeap) (id : ℕ)
    (result : DeadlineHeap × Connection) : Prop :=
  Holds before id result.1 result.2.deadline ∧ result.2.Sound config acceptedAt

theorem closeOnLoop_serves (hholds : Holds before id heap slot)
    (hearly : c.established = false → c.streams = [])
    (hhandshaking : c.tlsHandshaking = true → c.established = false) :
    Serves config acceptedAt before id (closeOnLoop id heap c) := by
  refine ⟨hholds.remove, ⟨hearly, hhandshaking, ?_⟩⟩
  simp [closeOnLoop, clearConnectionDeadline, Connection.awaited]

theorem setConnectionDeadline_serves (hholds : Holds before id heap slot)
    (hearly : c.established = false → c.streams = [])
    (hhandshaking : c.tlsHandshaking = true → c.established = false)
    (hawaited : c.awaited config acceptedAt = some ⟨kind, expiresAt⟩) (oom : Bool) :
    Serves config acceptedAt before id
      ((setConnectionDeadline id kind expiresAt oom heap c).getD (closeOnLoop id heap c)) := by
  unfold setConnectionDeadline
  cases hinsert : heap.insertOrUpdate (.connection id) expiresAt oom with
  | none => exact closeOnLoop_serves hholds hearly hhandshaking
  | some =>
    refine ⟨hholds.insert hinsert, ⟨hearly, hhandshaking, ?_⟩⟩
    exact hawaited.symm

theorem armIdleOrClose_serves (hholds : Holds before id heap c.deadline)
    (hestablished : c.established = true) (hdone : c.tlsHandshaking = false)
    (hleaving : (c.closing || c.draining || !c.streams.isEmpty) = true → c.deadline = none)
    (now : ℕ) (hquiet : c.quietSince = now) (oom : Bool) :
    Serves config acceptedAt before id (armIdleOrClose config true id now oom heap c) := by
  have hearly : c.established = false → c.streams = [] := by simp [hestablished]
  have hhandshaking : c.tlsHandshaking = true → c.established = false := by simp [hdone]
  unfold armIdleOrClose armIdleDeadline
  by_cases hgoes : (c.closing || c.draining || !c.streams.isEmpty) = true
  · simp only [hgoes, Bool.true_or, if_true, Option.getD_some]
    refine ⟨hholds, ⟨hearly, hhandshaking, ?_⟩⟩
    rw [hleaving hgoes, Connection.awaited, if_pos hgoes]
  · simp only [hgoes, Bool.not_true, Bool.or_false]
    refine setConnectionDeadline_serves hholds hearly hhandshaking ?_ oom
    rw [Connection.awaited, if_neg hgoes]
    simp [Connection.dueAt, Connection.due, hdone, hestablished, hquiet]

theorem accept_serves (hholds : Holds before id heap none) (tls setupFails : Bool) (now : ℕ)
    (oom : Bool) : Serves config now before id (accept config id tls setupFails now oom heap) := by
  unfold accept
  cases setupFails with
  | true => exact closeOnLoop_serves hholds (fun _ => rfl) (fun _ => rfl)
  | false =>
    cases tls with
    | true | false =>
      exact setConnectionDeadline_serves hholds (fun _ => rfl) (fun _ => rfl) rfl oom

section

variable (hsound : c.Sound config acceptedAt)

include hsound

theorem Connection.Sound.slot_cases :
    c.deadline = none ∧ (c.closing || c.draining || !c.streams.isEmpty) = true ∨
      c.deadline = some ⟨c.due, c.dueAt config acceptedAt⟩ ∧
        (c.closing || c.draining || !c.streams.isEmpty) = false := by
  have hslot := hsound.slot
  unfold Connection.awaited at hslot
  by_cases hgoes : (c.closing || c.draining || !c.streams.isEmpty) = true
  · exact .inl ⟨hslot.trans (if_pos hgoes), hgoes⟩
  · exact .inr ⟨hslot.trans (if_neg hgoes), by simpa using hgoes⟩

theorem Connection.Sound.handshake_done
    (hestablished : c.established = true) : c.tlsHandshaking = false := by
  cases hhandshaking : c.tlsHandshaking with
  | false => rfl
  | true => simp [hsound.handshaking hhandshaking] at hestablished

theorem Connection.Sound.due_idle (hestablished : c.established = true) : c.due = .idle := by
  simp [Connection.due, hsound.handshake_done hestablished, hestablished]

theorem Connection.Sound.not_established
    {value : ConnectionDeadline} (hvalue : c.deadline = some value) (hkind : value.kind ≠ .idle) :
    c.established = false := by
  cases hestablished : c.established with
  | false => rfl
  | true =>
    obtain ⟨hnone, -⟩ | ⟨hsome, -⟩ := hsound.slot_cases
    · simp [hnone] at hvalue
    · rw [hsome, hsound.due_idle hestablished] at hvalue
      cases hvalue
      exact (hkind rfl).elim

end

variable (hholds : Holds before id heap c.deadline) (hsound : c.Sound config acceptedAt)

include hholds hsound

theorem handshakeComplete_serves (now : ℕ) (oom : Bool) :
    Serves config acceptedAt before id (handshakeComplete config true id now oom heap c) := by
  unfold handshakeComplete
  split
  · exact armIdleOrClose_serves hholds.remove rfl rfl (fun _ => rfl) now rfl oom
  · exact ⟨hholds, hsound⟩

theorem onFrameReceived_serves (frame : StreamlessFrame) (now : ℕ) (oom : Bool) :
    Serves config acceptedAt before id (onFrameReceived config true id frame now oom heap c) := by
  unfold onFrameReceived
  split
  · exact ⟨hholds, hsound⟩
  rename_i hhandshaking
  have hdone : c.tlsHandshaking = false := by simpa using hhandshaking
  split
  · dsimp only
    split
    · rename_i hpreface
      refine armIdleOrClose_serves hholds.remove rfl ?_ (fun _ => rfl) now ?_ oom
      · exact hdone
      · exact if_neg (by simp [hsound.not_established hpreface (by simp)])
    · rename_i hother
      refine ⟨hholds, ⟨by simp, by simp [hdone], ?_⟩⟩
      obtain ⟨hnone, hgoes⟩ | ⟨hsome, -⟩ := hsound.slot_cases
      · exact hnone.trans (if_pos hgoes).symm
      · cases hestablished : c.established with
        | true =>
          have hsame : { c with established := true, quietSince := c.quietSince } = c := by
            rw [← hestablished]
          simpa only [if_true, hsame] using hsound.slot
        | false =>
          have hdue : c.due = .cleartextPreface := by simp [Connection.due, hdone, hestablished]
          exact (hother _ (hsome.trans (by rw [hdue]))).elim
  · exact ⟨hholds, hsound⟩

theorem onBeginHeaders_serves (stream : ℕ) (oom : Bool) :
    Serves config acceptedAt before id (onBeginHeaders config id stream oom heap c) := by
  unfold onBeginHeaders
  split
  · exact ⟨hholds, hsound⟩
  rename_i hgoes
  have hestablished : c.established = true := by
    revert hgoes
    cases c.established <;> simp
  have hdone := hsound.handshake_done hestablished
  split
  · exact closeOnLoop_serves hholds hsound.early hsound.handshaking
  · dsimp only
    split
    · refine ⟨hholds.remove, ⟨by simp [clearConnectionDeadline, hestablished],
        by simp [clearConnectionDeadline, hdone], ?_⟩⟩
      simp [clearConnectionDeadline, Connection.awaited]
    · rename_i hother
      refine ⟨hholds, ⟨by simp [hestablished], by simp [hdone], ?_⟩⟩
      obtain ⟨hnone, -⟩ | ⟨hsome, -⟩ := hsound.slot_cases
      · simp [hnone, Connection.awaited]
      · rw [hsound.due_idle hestablished] at hsome
        exact (hother _ hsome).elim

theorem onStreamClose_serves (stream now : ℕ) (oom : Bool) :
    Serves config acceptedAt before id (onStreamClose config true id stream now oom heap c) := by
  unfold onStreamClose
  split
  · exact ⟨hholds, hsound⟩
  rename_i hearly
  have hestablished : c.established = true := by simpa using hearly
  have hdone := hsound.handshake_done hestablished
  have hremoved := hholds.removeStream id stream
  dsimp only
  split
  · rename_i hdraining
    refine ⟨hremoved, ⟨by simp [hestablished], by simp [hdone], ?_⟩⟩
    rw [hsound.slot]
    simp [Connection.awaited, hdraining]
  · rename_i hdraining
    split
    · rename_i hempty
      refine armIdleOrClose_serves
        (c := { c with streams := c.streams.erase stream, quietSince := now })
        hremoved hestablished hdone ?_ now rfl oom
      -- What holds the deadline back here held it back before the stream went.
      intro hgoes
      rw [hempty] at hgoes
      have hclosing : c.closing = true := by simpa [hdraining] using hgoes
      simp [hsound.slot, Connection.awaited, hclosing]
    · rename_i hmore
      refine ⟨hremoved, ⟨by simp [hestablished], by simp [hdone], ?_⟩⟩
      have hstreams : c.streams.isEmpty = false := by
        cases hc : c.streams with
        | nil => simp [hc] at hmore
        | cons => rfl
      simp [hsound.slot, Connection.awaited, hstreams, hmore]

omit hholds in
theorem expireConnection_serves (hpopped : Holds before id heap none) {key : ℕ}
    (hkey : c.deadline.map (·.expiresAt) = some key) :
    Serves config acceptedAt before id (expireConnection true id key heap c) := by
  obtain ⟨hnone, -⟩ | ⟨hsome, hstays⟩ := hsound.slot_cases
  · simp [hnone] at hkey
  have hat : c.dueAt config acceptedAt = key := by simpa [hsome] using hkey
  have hstays' : (c.closing = false ∧ c.draining = false) ∧ c.streams.isEmpty = true := by
    simpa [Bool.or_eq_false_iff] using hstays
  obtain ⟨⟨hclosing, hdraining⟩, hempty⟩ := hstays'
  unfold expireConnection
  rw [hsome]
  simp only [hat, ne_eq, not_true_eq_false, if_false, hclosing, Bool.not_true, Bool.or_false,
    Bool.false_eq_true]
  cases hdue : c.due with
  | tlsHandshake =>
    have hhandshaking : c.tlsHandshaking = true := by
      revert hdue
      unfold Connection.due
      split
      · exact fun _ => ‹_›
      · split <;> simp
    simp only [hhandshaking, if_true]
    exact closeOnLoop_serves hpopped hsound.early (fun _ => hsound.handshaking hhandshaking)
  | cleartextPreface => exact closeOnLoop_serves hpopped hsound.early hsound.handshaking
  | idle =>
    simp only [hempty, hdraining, Bool.not_true, Bool.or_false, Bool.false_eq_true, if_false]
    refine ⟨hpopped, ⟨hsound.early, hsound.handshaking, ?_⟩⟩
    simp [Connection.awaited]

end Connections

/-! ## Every reachable state -/

@[simp] theorem Reactor.update_config (r : Reactor) (id : ℕ)
    (callback : DeadlineHeap → Connection → DeadlineHeap × Connection) :
    (r.update id callback).config = r.config := by
  unfold Reactor.update
  split <;> rfl

@[simp] theorem Reactor.update_acceptedAt (r : Reactor) (id : ℕ)
    (callback : DeadlineHeap → Connection → DeadlineHeap × Connection) :
    (r.update id callback).acceptedAt = r.acceptedAt := by
  unfold Reactor.update
  split <;> rfl

@[simp] theorem Reactor.update_running (r : Reactor) (id : ℕ)
    (callback : DeadlineHeap → Connection → DeadlineHeap × Connection) :
    (r.update id callback).running = r.running := by
  unfold Reactor.update
  split <;> rfl

/-- The configuration and the accept times stay, and so does the end of the server's running. -/
theorem step_keeps (r : Reactor) (event : Event) :
    (step r event).config = r.config ∧
      (∀ id, id < r.next → (step r event).acceptedAt id = r.acceptedAt id) ∧
        ((step r event).running = true → r.running = true) := by
  cases event with
  | accept => exact ⟨rfl, fun id hid => Function.update_of_ne hid.ne _ _, fun h => h⟩
  | removeStreamDeadline => exact ⟨rfl, fun _ _ => rfl, fun h => h⟩
  | handshakeComplete | frame | beginHeaders | streamClose | close => simp [step]
  | setStreamDeadline =>
    simp only [step]
    split <;> exact ⟨rfl, fun _ _ => rfl, fun h => h⟩
  | finishClose =>
    simp only [step, Reactor.finishClose]
    split
    · exact ⟨rfl, fun _ _ => rfl, fun h => h⟩
    · split <;> exact ⟨rfl, fun _ _ => rfl, fun h => h⟩
  | expire =>
    simp only [step, Reactor.expire]
    split
    · exact ⟨rfl, fun _ _ => rfl, fun h => h⟩
    · split
      · exact ⟨rfl, fun _ _ => rfl, fun h => h⟩
      · split <;> simp
  | shutdown => exact ⟨rfl, fun _ _ => rfl, nofun⟩
  | beginDrain =>
    simp only [step]
    split <;> simp

/-- The heap has the slots of the connections, and no other entries of connections. -/
structure Reactor.Sound (r : Reactor) : Prop where
  indexed : r.heap.Indexed
  slots : ∀ id, r.heap.find (.connection id) =
    (r.connections id).bind fun c => c.deadline.map (·.expiresAt)
  fresh : ∀ id, r.next ≤ id → r.connections id = none
  connections : ∀ id c, r.connections id = some c → c.Sound r.config (r.acceptedAt id)

section Reactors

variable {r : Reactor}

variable {id : ℕ} {c : Connection}

theorem Reactor.Sound.holds (hsound : r.Sound) (hc : r.connections id = some c) :
    Holds r.heap id r.heap c.deadline :=
  ⟨hsound.indexed, by simp [hsound.slots id, hc], fun _ _ => rfl⟩

theorem Reactor.Sound.put (hsound : r.Sound) {result : DeadlineHeap × Connection}
    {acceptedAt : ℕ → ℕ} (haccepted : ∀ i, i ≠ id → acceptedAt i = r.acceptedAt i)
    (hserves : Serves r.config (acceptedAt id) r.heap id result) {next : ℕ} (hnext : r.next ≤ next)
    (hid : id < next) :
    Reactor.Sound { r with
      heap := result.1
      connections := Function.update r.connections id (some result.2)
      next := next
      acceptedAt := acceptedAt } := by
  obtain ⟨hholds, hconnection⟩ := hserves
  refine ⟨hholds.indexed, ?_, ?_, ?_⟩
  · intro i
    by_cases hi : i = id
    · simp [hi, hholds.own]
    · simp [Function.update_of_ne hi, hholds.others i hi, hsound.slots i]
  · intro i hle
    have hi : i ≠ id := (Nat.lt_of_lt_of_le hid hle).ne'
    exact (Function.update_of_ne hi _ _).trans (hsound.fresh i (hnext.trans hle))
  · intro i c hc
    by_cases hi : i = id
    · subst hi
      obtain rfl : result.2 = c := by simpa using hc
      exact hconnection
    · have hsame := hsound.connections i c (by simpa [Function.update_of_ne hi] using hc)
      rwa [← haccepted i hi] at hsame

theorem Reactor.Sound.lt_next (hsound : r.Sound) (hc : r.connections id = some c) :
    id < r.next := by
  by_contra hle
  simp [hsound.fresh id (Nat.le_of_not_lt hle)] at hc

theorem Reactor.Sound.update (hsound : r.Sound)
    {callback : DeadlineHeap → Connection → DeadlineHeap × Connection}
    (hcallback : ∀ c, Holds r.heap id r.heap c.deadline → c.Sound r.config (r.acceptedAt id) →
      Serves r.config (r.acceptedAt id) r.heap id (callback r.heap c)) :
    (r.update id callback).Sound := by
  unfold Reactor.update
  split
  · exact hsound
  · rename_i c hc
    exact hsound.put (fun _ _ => rfl) (hcallback c (hsound.holds hc) (hsound.connections id c hc))
      le_rfl (hsound.lt_next hc)

variable {heap : DeadlineHeap}

theorem Reactor.Sound.streams (hsound : r.Sound) (hindexed : heap.Indexed)
    (hfind : ∀ id, heap.find (.connection id) = r.heap.find (.connection id)) :
    Reactor.Sound { r with heap := heap } :=
  { hsound with
    indexed := hindexed
    slots := fun id => (hfind id).trans (hsound.slots id) }

theorem removeStreams_spec (id : ℕ) (streams : List ℕ) (hindexed : heap.Indexed) :
    (streams.foldl (fun heap stream => (heap.remove (.stream id stream)).1) heap).Indexed ∧
      ∀ i, (streams.foldl (fun heap stream => (heap.remove (.stream id stream)).1) heap).find
        (.connection i) = heap.find (.connection i) := by
  induction streams generalizing heap with
  | nil => exact ⟨hindexed, fun _ => rfl⟩
  | cons stream rest ih =>
    obtain ⟨hremoved, hfind⟩ := hindexed.remove (.stream id stream)
    obtain ⟨hrest, hsame⟩ := ih hremoved
    refine ⟨hrest, fun i => (hsame i).trans ?_⟩
    simp [hfind]

theorem Reactor.Sound.finishClose (hsound : r.Sound) (id : ℕ) : (r.finishClose id).Sound := by
  unfold Reactor.finishClose
  split
  · exact hsound
  · rename_i c hc
    split
    · obtain ⟨hremoved, hfind⟩ := hsound.indexed.remove (.connection id)
      obtain ⟨hindexed, hsame⟩ := removeStreams_spec id c.streams hremoved
      refine ⟨hindexed, ?_, ?_, ?_⟩
      · intro i
        rw [hsame, hfind]
        by_cases hi : i = id
        · simp [hi]
        · simp [Function.update_of_ne, hi, hsound.slots i]
      · intro i hle
        have hi : i ≠ id := (hsound.lt_next hc).trans_le hle |>.ne'
        exact (Function.update_of_ne hi _ _).trans (hsound.fresh i hle)
      · intro i c' hc'
        by_cases hi : i = id
        · simp [hi] at hc'
        · exact hsound.connections i c' (by simpa [Function.update_of_ne hi] using hc')
    · exact hsound

theorem Reactor.Sound.expire (hsound : r.Sound) (hrunning : r.running = true) (now : ℕ) :
    (r.expire now).Sound := by
  unfold Reactor.expire
  cases hpeek : r.heap.peek with
  | none =>
    simp only [IndexedHeap.pop, hpeek, Option.map_none]
    exact hsound
  | some entry =>
    simp only [IndexedHeap.pop, hpeek, Option.map_some]
    obtain ⟨hindexed, hfind⟩ := hsound.indexed.remove entry.target
    split
    · exact hsound
    split
    · rename_i hstream
      rw [hstream] at hindexed hfind ⊢
      exact hsound.streams hindexed fun id => by simp [hfind]
    · rename_i id htarget
      have hhead : r.heap.entries[0]? = some entry := List.head?_eq_getElem?.symm.trans hpeek
      have hkey := hsound.indexed.find_eq hhead
      rw [htarget] at hindexed hfind hkey ⊢
      rw [hsound.slots id] at hkey
      obtain ⟨c, hc, hvalue⟩ := Option.bind_eq_some_iff.mp hkey
      have hpopped : Holds r.heap id (r.heap.remove (.connection id)).1 none :=
        (hsound.holds hc).remove
      have hserves := expireConnection_serves (hsound.connections id c hc) hpopped hvalue
      rw [← hrunning] at hserves
      simp only [Reactor.update, hc]
      exact hsound.put (fun _ _ => rfl) hserves le_rfl (hsound.lt_next hc)

theorem step_sound (hsound : r.Sound) (hrunning : r.running = true) (event : Event) :
    (step r event).running = true → (step r event).Sound := by
  intro hstep
  cases event with
  | accept tls setupFails now oom =>
    have hnone := hsound.fresh r.next le_rfl
    have hholds : Holds r.heap r.next r.heap none :=
      ⟨hsound.indexed, by simp [hsound.slots, hnone], fun _ _ => rfl⟩
    refine hsound.put (fun i hi => Function.update_of_ne hi _ _) ?_ (Nat.le_succ _)
      (Nat.lt_succ_self _)
    rw [Function.update_self]
    exact accept_serves hholds tls setupFails now oom
  | handshakeComplete id now oom =>
    refine hsound.update fun c hholds hc => ?_
    rw [hrunning]
    exact handshakeComplete_serves hholds hc now oom
  | frame id frame now oom =>
    refine hsound.update fun c hholds hc => ?_
    rw [hrunning]
    exact onFrameReceived_serves hholds hc frame now oom
  | beginHeaders id stream oom =>
    exact hsound.update fun c hholds hc => onBeginHeaders_serves hholds hc stream oom
  | streamClose id stream now oom =>
    refine hsound.update fun c hholds hc => ?_
    rw [hrunning]
    exact onStreamClose_serves hholds hc stream now oom
  | setStreamDeadline =>
    simp only [step]
    split
    · exact hsound
    · rename_i hinsert
      obtain ⟨hindexed, hfind⟩ := hsound.indexed.insertOrUpdate hinsert
      exact hsound.streams hindexed fun i => by simp [hfind]
  | removeStreamDeadline id stream =>
    obtain ⟨hindexed, hfind⟩ := hsound.indexed.remove (.stream id stream)
    exact hsound.streams hindexed fun i => by simp [hfind]
  | close =>
    exact hsound.update fun c hholds hc => closeOnLoop_serves hholds hc.early hc.handshaking
  | finishClose id => exact hsound.finishClose id
  | expire now => exact hsound.expire hrunning now
  | shutdown => exact absurd hstep (by simp [step])
  | beginDrain =>
    simp only [step, hrunning, if_true]
    exact hsound

theorem start_sound (config : Config) : (Reactor.start config).Sound :=
  ⟨IndexedHeap.empty_indexed, fun _ => rfl, fun _ _ => rfl, nofun⟩

theorem reachable_sound (config : Config) (events : List Event) :
    (Run.final step (Reactor.start config) events).config = config ∧
      ((Run.final step (Reactor.start config) events).running = true →
        (Run.final step (Reactor.start config) events).Sound) := by
  refine Run.invariant_always
    (I := fun r : Reactor => r.config = config ∧ (r.running = true → r.Sound)) ?_ events
    ⟨rfl, fun _ => start_sound config⟩
  rintro r event ⟨hconfig, hsound⟩
  obtain ⟨hkeeps, -, hruns⟩ := step_keeps r event
  refine ⟨hkeeps.trans hconfig, fun hrunning => ?_⟩
  exact step_sound (hsound (hruns hrunning)) (hruns hrunning) event hrunning

theorem Reactor.Sound.entriesOf (hsound : r.Sound) (hc : r.connections id = some c) :
    r.heap.entriesOf (.connection id) =
      c.deadline.toList.map fun value => ⟨value.expiresAt, .connection id⟩ := by
  rw [hsound.indexed.entriesOf_eq, hsound.slots id, hc, Option.bind_some]
  cases c.deadline <;> rfl

theorem onFrameReceived_established {config : Config} {acceptedAt : ℕ}
    (hsound : c.Sound config acceptedAt) (hestablished : c.established = true) (running : Bool)
    (id : ℕ) (frame : StreamlessFrame) (now : ℕ) (oom : Bool) (heap : DeadlineHeap) :
    onFrameReceived config running id frame now oom heap c = (heap, c) := by
  have hsame : { c with established := true, quietSince := c.quietSince } = c := by
    rw [← hestablished]
  unfold onFrameReceived
  split
  · rfl
  split
  · dsimp only
    split
    · rename_i hpreface
      simp [hsound.not_established hpreface (by simp)] at hestablished
    · rw [hsame]
  · rfl

theorem Reactor.Sound.frame (hsound : r.Sound) (hc : r.connections id = some c)
    (hestablished : c.established = true) (frame : StreamlessFrame) (now : ℕ) (oom : Bool) :
    step r (.frame id frame now oom) = r := by
  simp only [step, Reactor.update, hc,
    onFrameReceived_established (hsound.connections id c hc) hestablished]
  rw [← hc, Function.update_eq_self]

end Reactors

/-- While the server runs, a connection with streams has no deadline at all.  An established one
without streams that is not on its way out has one, an idle deadline, counted from the last closed
stream or from the establishment, and frames without a stream do not move it.  The deadline of the
preface or the handshake is counted from the accept. -/
theorem connection_deadlines (config : Config) (events : List Event) (id : ℕ) (c : Connection)
    (hrunning : (Run.final step (Reactor.start config) events).running = true)
    (hc : (Run.final step (Reactor.start config) events).connections id = some c) :
    let r := Run.final step (Reactor.start config) events
    (c.streams ≠ [] → c.deadline = none ∧ r.heap.entriesOf (.connection id) = []) ∧
    (c.established = true → c.draining = false → c.closing = false → c.streams = [] →
      ∃ expiresAt ≤ c.quietSince + config.connectionIdleTimeout,
        c.deadline = some ⟨.idle, expiresAt⟩ ∧
          r.heap.entriesOf (.connection id) = [⟨expiresAt, .connection id⟩]) ∧
    (c.established = true → ∀ frame now oom, step r (.frame id frame now oom) = r) ∧
    (∀ expiresAt, c.deadline = some ⟨.cleartextPreface, expiresAt⟩ →
      expiresAt = satAdd (r.acceptedAt id) config.cleartextPrefaceTimeout) ∧
    (∀ expiresAt, c.deadline = some ⟨.tlsHandshake, expiresAt⟩ →
      expiresAt = satAdd (r.acceptedAt id) config.tlsHandshakeTimeout) ∧
    ∀ event, (step r event).acceptedAt id = r.acceptedAt id := by
  obtain ⟨hconfig, hreachable⟩ := reachable_sound config events
  have hsound := hreachable hrunning
  have hconnection := hsound.connections id c hc
  rw [hconfig] at hconnection
  intro r
  have hentries : r.heap.entriesOf (.connection id) =
      c.deadline.toList.map fun value => ⟨value.expiresAt, .connection id⟩ := hsound.entriesOf hc
  have hdue : ∀ kind expiresAt, c.deadline = some ⟨kind, expiresAt⟩ →
      kind = c.due ∧ expiresAt = c.dueAt config (r.acceptedAt id) := by
    intro kind expiresAt hvalue
    obtain ⟨hnone, -⟩ | ⟨hsome, -⟩ := hconnection.slot_cases
    · simp [hnone] at hvalue
    · rw [hsome] at hvalue
      cases hvalue
      exact ⟨rfl, rfl⟩
  refine ⟨?_, ?_, ?_, ?_, ?_, ?_⟩
  · intro hstreams
    have hnone : c.deadline = none := by simp [hconnection.slot, Connection.awaited, hstreams]
    exact ⟨hnone, by rw [hentries, hnone]; rfl⟩
  · intro hestablished hdraining hclosing hstreams
    have hsome : c.deadline = some ⟨.idle, satAdd c.quietSince config.connectionIdleTimeout⟩ := by
      simp [hconnection.slot, Connection.awaited, Connection.dueAt,
        hconnection.due_idle hestablished, hdraining, hclosing, hstreams]
    exact ⟨_, min_le_left _ _, hsome, by rw [hentries, hsome]; rfl⟩
  · intro hestablished frame now oom
    exact hsound.frame hc hestablished frame now oom
  · intro expiresAt hvalue
    obtain ⟨hkind, hat⟩ := hdue _ _ hvalue
    rwa [Connection.dueAt, ← hkind] at hat
  · intro expiresAt hvalue
    obtain ⟨hkind, hat⟩ := hdue _ _ hvalue
    rwa [Connection.dueAt, ← hkind] at hat
  · intro event
    exact (step_keeps r event).2.1 id (hsound.lt_next hc)

/-- A cleartext connection whose only stream is closed at 8, and a TLS connection. -/
def quietRun : List Event :=
  [.accept false false 1 false, .frame 0 (.settings false) 3 false, .beginHeaders 0 1 false,
    .setStreamDeadline 0 1 6 false, .accept true false 7 false, .streamClose 0 1 8 false,
    .frame 0 .ping 9 false]

theorem connection_deadlines_quiet :
    ∃ c, (Run.final step (Reactor.start ⟨10, 5, 20, 100⟩) quietRun).connections 0 = some c ∧
      ∃ expiresAt ≤ 28, c.deadline = some ⟨.idle, expiresAt⟩ ∧
        (Run.final step (Reactor.start ⟨10, 5, 20, 100⟩) quietRun).heap.entriesOf (.connection 0) =
          [⟨expiresAt, .connection 0⟩] := by
  let c : Connection := ⟨false, false, false, [], some ⟨.idle, 28⟩, true, 8⟩
  refine ⟨c, by decide, ?_⟩
  exact (connection_deadlines ⟨10, 5, 20, 100⟩ quietRun 0 c (by decide) (by decide)).2.1
    rfl rfl rfl rfl

end GrpcLite.Deadlines
