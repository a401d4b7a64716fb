import GrpcLite.Connection.Backoff
import GrpcLite.Lib.Run
import Mathlib.Data.List.Infix

/-!
# Establishing a connection

A channel resolves its host name, tries the addresses one after another, and backs off when none is
left.  `log` is the history of the channel, newest note first.
-/

namespace GrpcLite.Establish

inductive ConnectionState where
  | resolving | connecting | handshaking | active | draining | backingOff | closing
  deriving DecidableEq, Repr

inductive ResolveState where
  | idle | pending | ready | failed | cancelled
  deriving DecidableEq, Repr

inductive Note (α : Type) where
  | resolving
  | resolved (addresses : List α)
  | attempt (address : α)
  | active
  | closed
  | backoff (base delay : ℕ)
  | reset
  deriving DecidableEq

/-- `running` says that the channel's state is `starting` or `running`, `tlsSession` that the
connection has one, and `queryActive` that the resolver still owes its answer. -/
structure Impl (α : Type) where
  literalAddress : Option α
  tls : Bool
  reconnectOptions : Option ReconnectOptions
  reconnectBackoffNs : ℕ
  reconnectAttempt : ℕ := 0
  pendingReset : Bool := false
  running : Bool := true
  stoppingOnLoop : Bool := false
  connectionState : ConnectionState := .connecting
  resolveState : ResolveState := .idle
  queryActive : Bool := false
  resolvedAddresses : List α := []
  nextAddress : ℕ := 0
  tcpInitialized : Bool := false
  tlsSession : Bool := false
  connectActive : Bool := false
  reconnectAfterClose : Bool := false
  everActive : Bool := false
  trapped : Bool := false
  log : List (Note α) := []
  deriving DecidableEq

/-- What the environment decides when a connection is started or put off: the resolver takes the
query, the socket is created, the sessions are set up, the timer is scheduled. -/
structure Choices where
  resolver : Bool := true
  socket : Bool := true
  session : Bool := true
  timer : Bool := true
  random : UInt64 := 0

/-- The flush of an activation, and the one after the pending calls have been submitted. -/
structure Activation where
  flush : Bool := true
  pending : Bool := true

/-- The result of `driveTlsHandshake`'s loop.  `plaintext` says that reading what came after the
handshake succeeds. -/
inductive Handshake where
  | progress
  | failed
  | complete (activation : Activation) (plaintext : Bool)

inductive ConnectResult where
  | failed
  | optionFailed
  | connected (activation : Activation) (handshake : Handshake)

inductive ResolveResult (α : Type) where
  | addresses (addresses : List α)
  | failed
  | cancelled

variable {α : Type}

def Impl.new (literal : Option α) (options : Option ReconnectOptions) (tls : Bool) : Impl α where
  literalAddress := literal
  tls := tls
  reconnectOptions := options
  reconnectBackoffNs := (options.map (·.initialBackoffNs.toNat)).getD 0

def canReconnect (s : Impl α) : Bool :=
  match s.reconnectOptions with
  | none => false
  | some options => s.everActive || options.allowInitialOffline

def clearResolvedAddresses (s : Impl α) : Impl α :=
  { s with resolvedAddresses := [], nextAddress := 0, resolveState := .idle }

def beginStop (s : Impl α) : Impl α :=
  if s.stoppingOnLoop then s
  else { s with stoppingOnLoop := true, running := false, connectionState := .closing }

def scheduleReconnect (c : Choices) (s : Impl α) : Impl α :=
  match s.reconnectOptions with
  | none => beginStop s
  | some options =>
    if !canReconnect s then beginStop s
    else
      match jitterReconnectBackoffNs options s.reconnectBackoffNs c.random with
      | none => { s with trapped := true }
      | some delay =>
        let s := { clearResolvedAddresses s with
          connectionState := .backingOff
          reconnectAfterClose := false
          reconnectBackoffNs := nextReconnectBackoffNs options s.reconnectBackoffNs
          reconnectAttempt := min (s.reconnectAttempt + 1) (2 ^ 32 - 1)
          log := .backoff s.reconnectBackoffNs delay :: s.log }
        if c.timer then s else beginStop s

/-- The part of `startConnection` after the address is chosen.  The flag is false for an error. -/
def connectTo (c : Choices) (address : α) (s : Impl α) : Impl α × Bool :=
  if !c.socket then (s, false)
  else
    let s := { s with tcpInitialized := true, connectionState := .connecting }
    if !c.session then (beginStop s, true)
    else
      ({ s with tlsSession := s.tls, connectActive := true, log := .attempt address :: s.log },
        true)

def startConnection (c : Choices) (s : Impl α) : Impl α × Bool :=
  match s.literalAddress with
  | some address => connectTo c address s
  | none =>
    match s.resolveState with
    | .idle =>
      ({ s with
        resolveState := .pending, connectionState := .resolving, queryActive := c.resolver
        log := .resolving :: s.log }, c.resolver)
    | .pending => (s, true)
    | .ready =>
      match s.resolvedAddresses[s.nextAddress]? with
      | none => (s, false)
      | some candidate => connectTo c candidate { s with nextAddress := s.nextAddress + 1 }
    | .failed | .cancelled => (s, false)

/-- `startConnection(impl) catch scheduleReconnect(impl, …)` -/
def connectOrBackOff (c : Choices) (s : Impl α) : Impl α :=
  match startConnection c s with
  | (s, true) => s
  | (s, false) => scheduleReconnect c s

def continueResolvedConnection (c : Choices) (s : Impl α) : Impl α :=
  if s.connectionState ≠ .resolving then s
  else
    match s.resolveState with
    | .pending | .idle => s
    | .ready => connectOrBackOff c s
    | .failed | .cancelled => scheduleReconnect c s

def failConnectionCandidate (s : Impl α) : Impl α :=
  if s.literalAddress.isSome ∨ s.resolvedAddresses.length ≤ s.nextAddress then
    if !canReconnect s then beginStop s
    else { s with reconnectAfterClose := true, connectionState := .closing, tlsSession := false }
  else { s with reconnectAfterClose := false, connectionState := .closing, tlsSession := false }

def handleTransportFailure (s : Impl α) : Impl α :=
  if s.stoppingOnLoop ∨ s.connectionState = .closing ∨ s.connectionState = .backingOff then s
  else if !canReconnect s then beginStop s
  else
    { clearResolvedAddresses s with
      connectionState := .closing, reconnectAfterClose := true, tlsSession := false }

/-- The caller has seen that no operation and no stream is left. -/
def beginReconnect (s : Impl α) : Impl α :=
  if s.connectionState ≠ .draining then s
  else
    { clearResolvedAddresses s with
      connectionState := .closing, reconnectAfterClose := false, tlsSession := false }

def activateConnection (activation : Activation) (s : Impl α) : Impl α × Bool :=
  let s := { clearResolvedAddresses s with connectionState := .active, log := .active :: s.log }
  if !activation.flush then (s, false)
  else
    let s := { s with everActive := true, pendingReset := s.reconnectAttempt != 0 }
    (if activation.pending then s else handleTransportFailure s, true)

def driveTlsHandshake (handshake : Handshake) (s : Impl α) : Impl α × Bool :=
  match handshake with
  | .progress => (s, true)
  | .failed => (s, false)
  | .complete activation plaintext =>
    match activateConnection activation s with
    | (s, false) => (s, false)
    | (s, true) => (s, !s.stoppingOnLoop && plaintext)

/-- `driveTlsHandshake(impl) catch failConnectionCandidate(impl, …)` -/
def shakeHands (handshake : Handshake) (s : Impl α) : Impl α :=
  match driveTlsHandshake handshake s with
  | (s, true) => s
  | (s, false) => failConnectionCandidate s

def onResolved (result : ResolveResult α) (s : Impl α) : Impl α :=
  match result with
  | .addresses addresses =>
    { s with
      resolvedAddresses := addresses, nextAddress := 0, resolveState := .ready
      log := .resolved addresses :: s.log }
  | .failed => { s with resolveState := .failed }
  | .cancelled => { s with resolveState := .cancelled }

def onConnect (result : ConnectResult) (s : Impl α) : Impl α :=
  let s := { s with connectActive := false }
  match result with
  | .failed =>
    if s.literalAddress.isSome then failConnectionCandidate s
    else { s with connectionState := .closing, tlsSession := false }
  | .optionFailed => failConnectionCandidate s
  | .connected activation handshake =>
    if !s.running then beginStop s
    else if s.tlsSession then shakeHands handshake { s with connectionState := .handshaking }
    else
      match activateConnection activation s with
      | (s, true) => s
      | (s, false) => handleTransportFailure s

def onTcpClosed (c : Choices) (s : Impl α) : Impl α :=
  let s := { s with tcpInitialized := false, log := .closed :: s.log }
  if s.stoppingOnLoop then s
  else if s.connectionState ≠ .closing then s
  else if !s.running then s
  else if s.reconnectAfterClose then scheduleReconnect c s
  else connectOrBackOff c s

/-- `processStreamWakes`, where `commandFails` says that a command of a woken stream fails.  That
can happen in every state: a stream whose connection is gone may still be paused with data. -/
def processStreamWakes (commandFails : Bool) (s : Impl α) : Impl α :=
  if commandFails then handleTransportFailure s else s

/-- `onAsync`; `idle` says that no operation and no stream is left. -/
def onAsync (handshake : Handshake) (c : Choices) (idle commandFails : Bool) (s : Impl α) :
    Impl α :=
  if !s.running then beginStop s
  else
    let s := processStreamWakes commandFails s
    match s.connectionState with
    | .resolving => continueResolvedConnection c s
    | .draining => if idle then beginReconnect s else s
    | .handshaking => shakeHands handshake s
    | _ => s

def onSettings (s : Impl α) : Impl α :=
  if s.pendingReset then
    match s.reconnectOptions with
    | none => { s with trapped := true }
    | some options =>
      { s with
        reconnectAttempt := 0, reconnectBackoffNs := options.initialBackoffNs.toNat
        pendingReset := false, log := .reset :: s.log }
  else s

def Impl.Live (s : Impl α) : Prop := s.connectionState = .active ∨ s.connectionState = .draining

instance (s : Impl α) : Decidable s.Live := inferInstanceAs (Decidable (_ ∨ _))

/-- Events happen one at a time on the loop of the channel.  An event that the state does not allow
changes nothing. -/
inductive Event (α : Type) where
  | resolved (result : ResolveResult α)
  | async (handshake : Handshake) (c : Choices) (idle commandFails : Bool)
  | connectDone (result : ConnectResult)
  | readFailed (idle : Bool)
  | read (handshake : Handshake)
  | settings
  | goaway
  | transportFailed
  | writeFailed
  | handshakeTimeout
  | reconnectDue (c : Choices)
  | tcpClosed (c : Choices)
  | close
  | stop

def react (s : Impl α) : Event α → Impl α
  | .resolved result =>
    if s.queryActive then onResolved result { s with queryActive := false } else s
  | .async handshake c idle commandFails => onAsync handshake c idle commandFails s
  | .connectDone result => if s.connectActive then onConnect result s else s
  | .readFailed idle =>
    if s.connectionState = .handshaking then failConnectionCandidate s
    else if s.connectionState = .draining ∧ idle then beginReconnect s
    else if s.Live then handleTransportFailure s
    else s
  | .read handshake => if s.connectionState = .handshaking then shakeHands handshake s else s
  | .settings => if s.Live then onSettings s else s
  | .goaway => if s.connectionState = .active then { s with connectionState := .draining } else s
  | .transportFailed => if s.Live then handleTransportFailure s else s
  -- a write completes with an error, or the wakeup after it fails
  | .writeFailed =>
    if s.connectionState = .handshaking ∨ s.Live then handleTransportFailure s else s
  | .handshakeTimeout => if s.connectionState = .handshaking then failConnectionCandidate s else s
  | .reconnectDue c => if s.connectionState = .backingOff then connectOrBackOff c s else s
  -- the socket is not closed before its connect is completed
  | .tcpClosed c => if s.tcpInitialized ∧ ¬s.connectActive then onTcpClosed c s else s
  | .close => { s with running := false }
  | .stop => beginStop s

/-- A trap ends the process. -/
def step (s : Impl α) (event : Event α) : Impl α := if s.trapped then s else react s event

def launch (literal : Option α) (options : Option ReconnectOptions) (tls : Bool) (c : Choices) :
    Impl α := connectOrBackOff c (.new literal options tls)

/-! ## What the log says about the candidates -/

section Candidates

/-- What has happened since the last successful resolution. -/
structure Round (α : Type) where
  addresses : List α
  tried : List α := []
  active : Bool := false

/-- `none` once another resolution or a backoff has begun. -/
def round : List (Note α) → Option (Round α)
  | [] => none
  | .resolved addresses :: _ => some { addresses := addresses }
  | .attempt address :: log => (round log).map fun r => { r with tried := r.tried ++ [address] }
  | .active :: log => (round log).map fun r => { r with active := true }
  | .resolving :: _ | .backoff _ _ :: _ => none
  | .closed :: log | .reset :: log => round log

def opened : List (Note α) → Bool
  | [] => false
  | .attempt _ :: _ => true
  | .closed :: _ => false
  | _ :: log => opened log

/-- All candidates of the round were tried, or one of them became active. -/
def Settled (log : List (Note α)) : Prop :=
  ∀ r, round log = some r → r.tried = r.addresses ∨ r.active = true

/-- What may be noted after a log.  The candidates of a round are tried in the order of its
addresses, each on a socket of its own, and a round is not given up early. -/
def Orderly : Note α → List (Note α) → Prop
  | .attempt address, before =>
    opened before = false ∧ ∃ r, round before = some r ∧ r.tried ++ [address] <+: r.addresses
  | .resolving, before | .backoff _ _, before => Settled before
  | _, _ => True

def Recorded (P : Note α → List (Note α) → Prop) (log : List (Note α)) : Prop :=
  ∀ note before, note :: before <:+ log → P note before

variable {P : Note α → List (Note α) → Prop} {event : Event α}

theorem recorded_nil : Recorded P [] :=
  fun _ _ hsuffix => nomatch List.suffix_nil.1 hsuffix

variable {log : List (Note α)}

theorem Recorded.cons {note : Note α} (hlog : Recorded P log) (hnote : P note log) :
    Recorded P (note :: log) := by
  intro note' before hsuffix
  rcases List.suffix_cons_iff.1 hsuffix with heq | hsuffix
  · cases heq
    exact hnote
  · exact hlog note' before hsuffix

/-- The fields that say which candidate is next agree with the log. -/
structure Cursor (s : Impl α) : Prop where
  ready : s.resolveState = .ready → ∃ r, round s.log = some r ∧
    r.addresses = s.resolvedAddresses ∧ r.tried = s.resolvedAddresses.take s.nextAddress
  other : s.resolveState ≠ .ready → Settled s.log

structure Tracks (s : Impl α) : Prop where
  cursor : Cursor s
  after : s.reconnectAfterClose = true → Settled s.log
  live : s.Live → s.resolveState ≠ .ready
  socket : s.tcpInitialized = false → opened s.log = false
  shut : s.connectionState = .resolving ∨ s.connectionState = .backingOff →
    s.tcpInitialized = false ∧ s.reconnectAfterClose = false
  waiting : s.resolveState = .pending → s.connectionState = .resolving
  querying : s.queryActive = true → s.connectionState = .resolving ∧ s.resolveState = .pending
  dialing : s.connectActive = true →
    s.connectionState = .connecting ∨ s.connectionState = .closing

/-- The channel waits for the close of a socket that it does not have, as after a failed stream
command during a resolution.  Only a stop ends that. -/
structure Stuck (s : Impl α) : Prop where
  closing : s.connectionState = .closing
  shut : s.tcpInitialized = false
  quiet : s.connectActive = false

structure Tries (s : Impl α) : Prop where
  host : s.literalAddress = none
  history : Recorded Orderly s.log
  stopped : s.stoppingOnLoop = true → s.connectionState = .closing ∧ s.running = false
  tracks : s.stoppingOnLoop = false → s.trapped = false → Stuck s ∨ Tracks s

/-- The channel goes on with no socket open, so that the next candidate may be started. -/
structure Free (s : Impl α) : Prop where
  tries : Tries s
  tracks : Tracks s
  going : s.stoppingOnLoop = false
  sound : s.trapped = false
  shut : s.tcpInitialized = false
  quiet : s.connectActive = false
  idle : s.queryActive = false

variable {s : Impl α} {c : Choices}

theorem not_live_of_closing (hclosing : s.connectionState = .closing) : ¬s.Live := by
  rintro (h | h)
  · exact nomatch hclosing.symm.trans h
  · exact nomatch hclosing.symm.trans h

theorem settled_of_round_none (hnone : round log = none) : Settled log := by
  intro r hr
  rw [hnone] at hr
  cases hr

theorem settled_active : Settled (.active :: log) := by
  intro r hr
  obtain ⟨r', -, rfl⟩ := Option.map_eq_some_iff.1 hr
  exact .inr rfl

/-- A round is over when no address is left. -/
theorem Cursor.settled (h : Cursor s) (hall : s.resolvedAddresses.length ≤ s.nextAddress) :
    Settled s.log := by
  by_cases hready : s.resolveState = .ready
  · obtain ⟨r, hr, haddresses, htried⟩ := h.ready hready
    intro r' hr'
    cases hr.symm.trans hr'
    exact .inl (by rw [htried, haddresses, List.take_of_length_le hall])
  · exact h.other hready

theorem Tracks.settled_of_live (h : Tracks s) (hlive : s.Live) : Settled s.log :=
  h.cursor.other (h.live hlive)

theorem Tracks.quiet (h : Tracks s) (hconnecting : s.connectionState ≠ .connecting)
    (hclosing : s.connectionState ≠ .closing) : s.connectActive = false := by
  by_contra hactive
  exact (h.dialing (by simpa using hactive)).elim hconnecting hclosing

theorem Tracks.idle (h : Tracks s) (hother : s.connectionState ≠ .resolving) :
    s.queryActive = false ∧ s.resolveState ≠ .pending := by
  refine ⟨?_, fun hpending => hother (h.waiting hpending)⟩
  by_contra hquery
  exact hother (h.querying (by simpa using hquery)).1

theorem Tries.beginStop (h : Tries s) : Tries (beginStop s) := by
  unfold Establish.beginStop
  split
  · exact h
  · exact { h with stopped := fun _ => ⟨rfl, rfl⟩, tracks := nofun }

/-- The channel goes on and is not stuck. -/
theorem Tries.tracks_of (h : Tries s) (hgoing : s.stoppingOnLoop = false)
    (hsound : s.trapped = false) (hstuck : ¬Stuck s) : Tracks s :=
  (h.tracks hgoing hsound).resolve_left hstuck

/-- Only a channel that has stopped is closing with `running` cleared on the loop. -/
theorem Tries.going (h : Tries s) (hother : s.connectionState ≠ .closing) :
    s.stoppingOnLoop = false := by
  by_contra hstopped
  exact hother (h.stopped (by simpa using hstopped)).1

/-- The connection is closed; `after` says that a backoff follows. -/
theorem Tries.close (h : Tries s) (hresolving : s.connectionState ≠ .resolving) {after : Bool}
    (hafter : after = true → s.stoppingOnLoop = false → s.trapped = false → Tracks s →
      Settled s.log) :
    Tries { s with
      reconnectAfterClose := after, connectionState := .closing, tlsSession := false } := by
  refine { h with
    stopped := fun hstopped => ⟨rfl, (h.stopped hstopped).2⟩, tracks := fun hgoing hsound => ?_ }
  rcases h.tracks hgoing hsound with hstuck | htracks
  · exact .inl { hstuck with closing := rfl }
  · exact .inr { htracks with
      cursor := { htracks.cursor with }
      after := fun hyes => hafter hyes hgoing hsound htracks
      live := fun hlive => absurd hlive (not_live_of_closing rfl)
      shut := nofun
      waiting := fun hpending => absurd (htracks.waiting hpending) hresolving
      querying := fun hquery => absurd (htracks.querying hquery).1 hresolving
      dialing := fun _ => .inr rfl }

theorem failConnectionCandidate_tries (h : Tries s) (hresolving : s.connectionState ≠ .resolving) :
    Tries (failConnectionCandidate s) := by
  unfold failConnectionCandidate
  split
  · next hlast =>
    split
    · exact h.beginStop
    · refine h.close hresolving fun _ _ _ htracks => htracks.cursor.settled ?_
      exact hlast.resolve_left (by simp [h.host])
  · exact h.close hresolving nofun

/-- The addresses are dropped, so that the round has to be over. -/
theorem Tries.clear (h : Tries s) (hresolving : s.connectionState ≠ .resolving)
    (hsettled : s.stoppingOnLoop = false → s.trapped = false → Tracks s → Settled s.log) :
    Tries (clearResolvedAddresses s) := by
  refine { h with tracks := fun hgoing hsound => ?_ }
  refine (h.tracks hgoing hsound).imp (fun hstuck => { hstuck with }) fun htracks => ?_
  exact { htracks with
    cursor := ⟨nofun, fun _ => hsettled hgoing hsound htracks⟩
    live := fun _ => nofun
    waiting := nofun
    querying := fun hquery => absurd (htracks.querying hquery).1 hresolving }

/-- A transport failure gives up the candidates that are left, if there are any. -/
theorem handleTransportFailure_tries (h : Tries s)
    (hsettled : s.connectionState = .connecting ∨ s.connectionState = .handshaking →
      canReconnect s = true → Tracks s → Settled s.log) : Tries (handleTransportFailure s) := by
  unfold handleTransportFailure
  split
  · exact h
  next hopen =>
  rw [not_or, not_or] at hopen
  split
  · exact h.beginStop
  next hreconnects =>
  by_cases hresolving : s.connectionState = .resolving
  · -- there is no socket that could be closed
    refine { h with
      stopped := fun hstopped => absurd hstopped hopen.1, tracks := fun hgoing hsound => .inl ?_ }
    have htracks := h.tracks_of hgoing hsound fun hstuck => hopen.2.1 hstuck.closing
    exact ⟨rfl, (htracks.shut (.inl hresolving)).1,
      htracks.quiet (by rw [hresolving]; decide) hopen.2.1⟩
  · refine (h.clear hresolving fun _ _ htracks => ?_).close hresolving fun _ _ _ hcleared =>
      hcleared.cursor.other nofun
    cases hstate : s.connectionState with
    | resolving => exact absurd hstate hresolving
    | connecting => exact hsettled (.inl hstate) (by simpa using hreconnects) htracks
    | handshaking => exact hsettled (.inr hstate) (by simpa using hreconnects) htracks
    | active => exact htracks.settled_of_live (.inl hstate)
    | draining => exact htracks.settled_of_live (.inr hstate)
    | backingOff => exact absurd hstate hopen.2.2
    | closing => exact absurd hstate hopen.2.1

theorem beginReconnect_tries (h : Tries s) : Tries (beginReconnect s) := by
  unfold beginReconnect
  split
  · exact h
  · next hdraining =>
    rw [not_not] at hdraining
    have hresolving : s.connectionState ≠ .resolving := by rw [hdraining]; decide
    exact (h.clear hresolving fun _ _ htracks =>
      htracks.settled_of_live (.inr hdraining)).close hresolving nofun

theorem scheduleReconnect_tries (h : Free s) (hsettled : Settled s.log) :
    Tries (scheduleReconnect c s) := by
  unfold scheduleReconnect
  split
  · exact h.tries.beginStop
  split
  · exact h.tries.beginStop
  split
  · exact { h.tries with tracks := fun _ => nofun }
  · next options _ _ _ delay _ =>
    have hwaits : Tries { clearResolvedAddresses s with
        connectionState := .backingOff
        reconnectAfterClose := false
        reconnectBackoffNs := nextReconnectBackoffNs options s.reconnectBackoffNs
        reconnectAttempt := min (s.reconnectAttempt + 1) (2 ^ 32 - 1)
        log := .backoff s.reconnectBackoffNs delay :: s.log } :=
      { host := h.tries.host
        history := h.tries.history.cons hsettled
        stopped := fun hstopped => nomatch h.going.symm.trans hstopped
        tracks := fun _ _ => .inr
          { cursor := ⟨nofun, fun _ => settled_of_round_none rfl⟩
            after := nofun
            live := by rintro (h | h) <;> cases h
            socket := h.tracks.socket
            shut := fun _ => ⟨h.shut, rfl⟩
            waiting := nofun
            querying := fun hquery => nomatch h.idle.symm.trans hquery
            dialing := fun hactive => nomatch h.quiet.symm.trans hactive } }
    split
    · exact hwaits
    · exact hwaits.beginStop

/-- The next candidate is dialled on a socket of its own. -/
theorem connectTo_tries {address : α} (h : Free s) (hafter : s.reconnectAfterClose = false)
    (hsocket : c.socket = true) (hready : s.resolveState = .ready)
    (hnext : s.resolvedAddresses[s.nextAddress]? = some address) :
    (connectTo c address { s with nextAddress := s.nextAddress + 1 }).2 = true ∧
      Tries (connectTo c address { s with nextAddress := s.nextAddress + 1 }).1 := by
  obtain ⟨r, hr, haddresses, htried⟩ := h.tracks.cursor.ready hready
  obtain ⟨hlt, hget⟩ := List.getElem?_eq_some_iff.1 hnext
  have hfurther : r.tried ++ [address] = s.resolvedAddresses.take (s.nextAddress + 1) := by
    rw [htried, ← hget, List.take_append_getElem hlt]
  have hprefix : r.tried ++ [address] <+: r.addresses := by
    rw [hfurther, haddresses]
    exact List.take_prefix _ _
  have hround : round (.attempt address :: s.log) = some { r with tried := r.tried ++ [address] } :=
    congrArg (Option.map _) hr
  unfold connectTo
  rw [if_neg (by simp [hsocket])]
  dsimp only
  split
  · -- the session could not be set up, which stops the channel
    refine ⟨rfl, ?_⟩
    unfold Establish.beginStop
    rw [if_neg (by simp [h.going])]
    exact { h.tries with stopped := fun _ => ⟨rfl, rfl⟩, tracks := nofun }
  · refine ⟨rfl, ?_⟩
    exact
      { host := h.tries.host
        history := h.tries.history.cons ⟨h.tracks.socket h.shut, r, hr, hprefix⟩
        stopped := fun hstopped => nomatch h.going.symm.trans hstopped
        tracks := fun _ _ => .inr
          { cursor :=
            ⟨fun _ => ⟨_, hround, haddresses, hfurther⟩, fun hother => absurd hready hother⟩
            after := fun hyes => nomatch hafter.symm.trans hyes
            live := by rintro (h | h) <;> cases h
            socket := nofun
            shut := by rintro (h | h) <;> cases h
            waiting := fun hpending => nomatch hready.symm.trans hpending
            querying := fun hquery => nomatch h.idle.symm.trans hquery
            dialing := fun _ => .inl rfl } }

/-- A query is sent to the resolver, or fails at once. -/
theorem Free.resolve (h : Free s) (hafter : s.reconnectAfterClose = false)
    (hidle : s.resolveState = .idle) (resolver : Bool) :
    Tries { s with
        resolveState := .pending, connectionState := .resolving, queryActive := resolver
        log := .resolving :: s.log } ∧
      (resolver = false → Free { s with
        resolveState := .pending, connectionState := .resolving, queryActive := resolver
        log := .resolving :: s.log }) := by
  have hsettled : Settled s.log := h.tracks.cursor.other (by rw [hidle]; decide)
  have htracks : Tracks { s with
      resolveState := .pending, connectionState := .resolving, queryActive := resolver
      log := .resolving :: s.log } :=
    { cursor := ⟨nofun, fun _ => settled_of_round_none rfl⟩
      after := fun _ => settled_of_round_none rfl
      live := fun _ => nofun
      socket := h.tracks.socket
      shut := fun _ => ⟨h.shut, hafter⟩
      waiting := fun _ => rfl
      querying := fun _ => ⟨rfl, rfl⟩
      dialing := fun hactive => nomatch h.quiet.symm.trans hactive }
  have htries : Tries { s with
      resolveState := .pending, connectionState := .resolving, queryActive := resolver
      log := .resolving :: s.log } :=
    { host := h.tries.host
      history := h.tries.history.cons hsettled
      stopped := fun hstopped => nomatch h.going.symm.trans hstopped
      tracks := fun _ _ => .inr htracks }
  exact ⟨htries, fun hfailed => ⟨htries, htracks, h.going, h.sound, h.shut, h.quiet, hfailed⟩⟩

/-- An error of `startConnection` leaves a round that is over. -/
theorem startConnection_tries (h : Free s) (hafter : s.reconnectAfterClose = false)
    (hsocket : c.socket = true) :
    ((startConnection c s).2 = true ∧ Tries (startConnection c s).1) ∨
      ((startConnection c s).2 = false ∧ Free (startConnection c s).1 ∧
        Settled (startConnection c s).1.log) := by
  unfold startConnection
  split
  · next hliteral => exact nomatch h.tries.host.symm.trans hliteral
  split
  · next hidle =>
    obtain ⟨htries, hfree⟩ := h.resolve hafter hidle c.resolver
    cases hresolver : c.resolver with
    | true => exact .inl ⟨rfl, hresolver ▸ htries⟩
    | false => exact .inr ⟨rfl, hresolver ▸ hfree hresolver, settled_of_round_none rfl⟩
  · exact .inl ⟨rfl, h.tries⟩
  · next hready =>
    split
    · next hout => exact .inr ⟨rfl, h, h.tracks.cursor.settled (List.getElem?_eq_none_iff.1 hout)⟩
    · next hnext => exact .inl (connectTo_tries h hafter hsocket hready hnext)
  · next hfailed => exact .inr ⟨rfl, h, h.tracks.cursor.other (by rw [hfailed]; decide)⟩
  · next hcancelled => exact .inr ⟨rfl, h, h.tracks.cursor.other (by rw [hcancelled]; decide)⟩

theorem connectOrBackOff_tries (h : Free s) (hafter : s.reconnectAfterClose = false)
    (hsocket : c.socket = true) : Tries (connectOrBackOff c s) := by
  have hstarted := startConnection_tries h hafter hsocket
  unfold connectOrBackOff
  split
  · next heq =>
    rw [heq] at hstarted
    exact (hstarted.resolve_right fun hfailed => nomatch hfailed.1).2
  · next heq =>
    rw [heq] at hstarted
    obtain ⟨-, hfree, hsettled⟩ := hstarted.resolve_left fun hok => nomatch hok.1
    exact scheduleReconnect_tries hfree hsettled

theorem handleTransportFailure_trapped (s : Impl α) :
    (handleTransportFailure s).trapped = s.trapped := by
  unfold handleTransportFailure Establish.beginStop clearResolvedAddresses
  split_ifs <;> rfl

/-- A connection becomes active, and may be lost at once. -/
theorem activateConnection_tries (h : Tries s) (htracks : Tracks s)
    (hgoing : s.stoppingOnLoop = false) (hresolving : s.connectionState ≠ .resolving)
    (hquiet : s.connectActive = false) (activation : Activation) :
    Tries (activateConnection activation s).1 ∧
      ((activateConnection activation s).1.connectionState = .active ∨
        (activateConnection activation s).1.connectionState = .closing) := by
  have hactive (ever reset : Bool) : Tries { clearResolvedAddresses s with
      connectionState := .active, log := .active :: s.log, everActive := ever
      pendingReset := reset } :=
    { host := h.host
      history := h.history.cons trivial
      stopped := fun hstopped => nomatch hgoing.symm.trans hstopped
      tracks := fun _ _ => .inr
        { cursor := ⟨nofun, fun _ => settled_active⟩
          after := fun _ => settled_active
          live := fun _ => nofun
          socket := htracks.socket
          shut := by rintro (h | h) <;> cases h
          waiting := nofun
          querying := fun hquery => absurd (htracks.querying hquery).1 hresolving
          dialing := fun hyes => nomatch hquiet.symm.trans hyes } }
  unfold activateConnection
  dsimp only
  split
  · exact ⟨hactive _ _, .inl rfl⟩
  · have hfinal := hactive true (s.reconnectAttempt != 0)
    split
    · exact ⟨hfinal, .inl rfl⟩
    · refine ⟨handleTransportFailure_tries hfinal (by rintro (h | h) <;> cases h), ?_⟩
      unfold handleTransportFailure Establish.beginStop
      split_ifs <;> simp

theorem shakeHands_tries (h : Tries s) (hhandshaking : s.connectionState = .handshaking)
    (hsound : s.trapped = false) (handshake : Handshake) : Tries (shakeHands handshake s) := by
  have hgoing := h.going (by rw [hhandshaking]; decide)
  have htracks : Tracks s := h.tracks_of hgoing hsound fun hstuck =>
    nomatch hhandshaking.symm.trans hstuck.closing
  have hresolving : s.connectionState ≠ .resolving := by rw [hhandshaking]; decide
  have hquiet := htracks.quiet (by rw [hhandshaking]; decide) (by rw [hhandshaking]; decide)
  have hdriven : Tries (driveTlsHandshake handshake s).1 ∧
      (driveTlsHandshake handshake s).1.connectionState ≠ .resolving := by
    cases handshake with
    | progress | failed => exact ⟨h, hresolving⟩
    | complete activation plaintext =>
      obtain ⟨hactive, hstate⟩ :=
        activateConnection_tries h htracks hgoing hresolving hquiet activation
      have hstate' : (activateConnection activation s).1.connectionState ≠ .resolving := by
        rcases hstate with hstate | hstate <;> rw [hstate] <;> decide
      unfold driveTlsHandshake
      dsimp only
      split
      · next heq =>
        rw [heq] at hactive hstate'
        exact ⟨hactive, hstate'⟩
      · next heq =>
        rw [heq] at hactive hstate'
        exact ⟨hactive, hstate'⟩
  unfold shakeHands
  split
  · next heq => exact (heq ▸ hdriven).1
  · next heq =>
    rw [heq] at hdriven
    exact failConnectionCandidate_tries hdriven.1 hdriven.2

/-- Where the completion of a connect finds the channel, also after a failed stream command has
closed the connection before. -/
theorem Tries.dialed (h : Tries s) (hsound : s.trapped = false) (hactive : s.connectActive = true) :
    Tries { s with connectActive := false } ∧ s.connectionState ≠ .resolving ∧
      (s.stoppingOnLoop = false → Tracks { s with connectActive := false }) := by
  have htracks (hgoing : s.stoppingOnLoop = false) : Tracks s :=
    h.tracks_of hgoing hsound fun hstuck => nomatch hstuck.quiet.symm.trans hactive
  have hdialed (hgoing : s.stoppingOnLoop = false) : Tracks { s with connectActive := false } :=
    { htracks hgoing with cursor := { (htracks hgoing).cursor with }, dialing := nofun }
  refine ⟨{ h with tracks := fun hgoing _ => .inr (hdialed hgoing) }, fun hresolving => ?_, hdialed⟩
  have hgoing := h.going (by rw [hresolving]; decide)
  rcases (htracks hgoing).dialing hactive with hstate | hstate
  · exact nomatch hresolving.symm.trans hstate
  · exact nomatch hresolving.symm.trans hstate

theorem onConnect_tries (h : Tries s) (hsound : s.trapped = false)
    (hactive : s.connectActive = true)
    (result : ConnectResult) : Tries (onConnect result s) := by
  obtain ⟨hdialed, hresolving, hgoes⟩ := h.dialed hsound hactive
  unfold onConnect
  cases result with
  | failed =>
    dsimp only
    rw [if_neg (by simp [h.host])]
    exact hdialed.close hresolving fun hafter _ _ htracks => htracks.after hafter
  | optionFailed => exact failConnectionCandidate_tries hdialed hresolving
  | connected activation handshake =>
    dsimp only
    split
    · exact hdialed.beginStop
    next hrunning =>
    have hgoing : s.stoppingOnLoop = false := by
      by_contra hstopped
      simp [(h.stopped (by simpa using hstopped)).2] at hrunning
    have htracks := hgoes hgoing
    split
    · have hshaking :
          Tries { s with connectActive := false, connectionState := .handshaking } :=
        { hdialed with
          stopped := fun hstopped => nomatch hgoing.symm.trans hstopped
          tracks := fun _ _ => .inr { htracks with
            cursor := { htracks.cursor with }
            live := by rintro (h | h) <;> cases h
            shut := by rintro (h | h) <;> cases h
            waiting := fun hpending => absurd (htracks.waiting hpending) hresolving
            querying := fun hquery => absurd (htracks.querying hquery).1 hresolving
            dialing := nofun } }
      exact shakeHands_tries hshaking rfl hsound handshake
    · obtain ⟨hfinal, hstate⟩ :=
        activateConnection_tries hdialed htracks hgoing hresolving rfl activation
      split
      · next heq =>
        rw [heq] at hfinal
        exact hfinal
      · next heq =>
        rw [heq] at hfinal hstate
        refine handleTransportFailure_tries hfinal fun hearly => ?_
        rcases hearly with hearly | hearly <;> rw [hearly] at hstate <;> simp at hstate

theorem onTcpClosed_tries (h : Tries s) (hsound : s.trapped = false)
    (hopen : s.tcpInitialized = true) (hquiet : s.connectActive = false)
    (hsocket : c.socket = true) : Tries (onTcpClosed c s) := by
  have htracks (hgoing : s.stoppingOnLoop = false) :
      Tracks { s with tcpInitialized := false, log := .closed :: s.log } := by
    have htracks := h.tracks_of hgoing hsound fun hstuck => nomatch hopen.symm.trans hstuck.shut
    exact { htracks with
      cursor := { htracks.cursor with }
      after := htracks.after
      socket := fun _ => rfl
      shut := fun hstate => ⟨rfl, (htracks.shut hstate).2⟩ }
  have hclosed : Tries { s with tcpInitialized := false, log := .closed :: s.log } :=
    { h with
      history := h.history.cons trivial
      tracks := fun hgoing _ => .inr (htracks hgoing) }
  unfold onTcpClosed
  dsimp only
  split
  · exact hclosed
  next hgoing =>
  split
  · exact hclosed
  next hclosing =>
  split
  · exact hclosed
  have htracks := htracks (by simpa using hgoing)
  rw [not_not] at hclosing
  have hfree : Free { s with tcpInitialized := false, log := .closed :: s.log } :=
    ⟨hclosed, htracks, by simpa using hgoing, hsound, rfl, hquiet,
      (htracks.idle (by rw [hclosing]; decide)).1⟩
  split
  · next hafter => exact scheduleReconnect_tries hfree (htracks.after hafter)
  · next hafter => exact connectOrBackOff_tries hfree (by simpa using hafter) hsocket

theorem continueResolvedConnection_tries (h : Tries s) (hsound : s.trapped = false)
    (hsocket : c.socket = true) : Tries (continueResolvedConnection c s) := by
  unfold continueResolvedConnection
  split
  · exact h
  next hresolving =>
  rw [not_not] at hresolving
  have hgoing := h.going (by rw [hresolving]; decide)
  have htracks : Tracks s := h.tracks_of hgoing hsound fun hstuck =>
    nomatch hresolving.symm.trans hstuck.closing
  obtain ⟨hshut, hafter⟩ := htracks.shut (.inl hresolving)
  have hfree (hanswered : s.resolveState ≠ .pending) : Free s := by
    refine ⟨h, htracks, hgoing, hsound, hshut, ?_, ?_⟩
    · exact htracks.quiet (by rw [hresolving]; decide) (by rw [hresolving]; decide)
    · by_contra hquery
      exact hanswered (htracks.querying (by simpa using hquery)).2
  split
  · exact h
  · exact h
  · next hready => exact connectOrBackOff_tries (hfree (by rw [hready]; decide)) hafter hsocket
  · next hfailed =>
    exact scheduleReconnect_tries (hfree (by rw [hfailed]; decide))
      (htracks.cursor.other (by rw [hfailed]; decide))
  · next hcancelled =>
    exact scheduleReconnect_tries (hfree (by rw [hcancelled]; decide))
      (htracks.cursor.other (by rw [hcancelled]; decide))

def Event.socketCreated : Event α → Bool
  | .async _ c _ _ | .reconnectDue c | .tcpClosed c => c.socket
  | _ => true

/-- Neither a write in the handshake of a candidate nor a stream command fails before it is active,
while other candidates are left and the channel may reconnect. -/
def Unbroken (s : Impl α) : Event α → Prop
  | .writeFailed => s.connectionState = .handshaking → canReconnect s = true →
    s.resolvedAddresses.length ≤ s.nextAddress
  | .async _ _ _ commandFails => commandFails = true → s.running = true →
    s.connectionState = .connecting ∨ s.connectionState = .handshaking → canReconnect s = true →
    s.resolvedAddresses.length ≤ s.nextAddress
  | _ => True

theorem onAsync_tries (h : Tries s) (hsound : s.trapped = false) (hsocket : c.socket = true)
    (handshake : Handshake) (idle commandFails : Bool)
    (hunbroken : Unbroken s (.async handshake c idle commandFails)) :
    Tries (onAsync handshake c idle commandFails s) := by
  unfold onAsync
  split
  · exact h.beginStop
  next hrunning =>
  have hwoken : Tries (processStreamWakes commandFails s) ∧
      (processStreamWakes commandFails s).trapped = false := by
    unfold processStreamWakes
    split
    · next hfails =>
      refine ⟨handleTransportFailure_tries h fun hstate hreconnects htracks => ?_,
        (handleTransportFailure_trapped s).trans hsound⟩
      exact htracks.cursor.settled
        (hunbroken hfails (by simpa using hrunning) hstate hreconnects)
    · exact ⟨h, hsound⟩
  dsimp only
  split
  · exact continueResolvedConnection_tries hwoken.1 hwoken.2 hsocket
  · split
    · exact beginReconnect_tries hwoken.1
    · exact hwoken.1
  · next hhandshaking => exact shakeHands_tries hwoken.1 hhandshaking hwoken.2 handshake
  · exact hwoken.1

theorem onResolved_tries (h : Tries s) (hquery : s.queryActive = true) (result : ResolveResult α) :
    Tries (onResolved result { s with queryActive := false }) := by
  cases result with
  | failed | cancelled =>
    refine { h with tracks := fun hgoing hsound => ?_ }
    refine (h.tracks hgoing hsound).imp (fun hstuck => { hstuck with }) fun htracks => ?_
    have hsettled := htracks.cursor.other (by rw [(htracks.querying hquery).2]; decide)
    exact { htracks with
      cursor := ⟨nofun, fun _ => hsettled⟩
      live := fun _ => nofun
      waiting := nofun
      querying := nofun }
  | addresses addresses =>
    refine { h with
      history := h.history.cons trivial
      tracks := fun hgoing hsound => ?_ }
    refine (h.tracks hgoing hsound).imp (fun hstuck => { hstuck with }) fun htracks => ?_
    have hresolving := (htracks.querying hquery).1
    have hafter := (htracks.shut (.inl hresolving)).2
    exact { htracks with
      cursor := ⟨fun _ => ⟨_, rfl, rfl, rfl⟩, fun hother => absurd rfl hother⟩
      after := fun hyes => nomatch hafter.symm.trans hyes
      live := by rintro (hlive | hlive) <;> exact nomatch hresolving.symm.trans hlive
      socket := htracks.socket
      waiting := nofun
      querying := nofun }

theorem onSettings_tries (h : Tries s) : Tries (onSettings s) := by
  unfold onSettings
  split
  · split
    · exact { h with tracks := fun _ => nofun }
    · refine { h with
        history := h.history.cons trivial
        tracks := fun hgoing hsound => ?_ }
      refine (h.tracks hgoing hsound).imp (fun hstuck => { hstuck with }) fun htracks => ?_
      exact { htracks with
        cursor := { htracks.cursor with }, after := htracks.after, socket := htracks.socket }
  · exact h

/-- A GOAWAY leaves an active connection to finish its calls. -/
theorem goaway_tries (h : Tries s) (hactive : s.connectionState = .active) :
    Tries { s with connectionState := .draining } := by
  have hgoing := h.going (by rw [hactive]; decide)
  refine { h with
    stopped := fun hstopped => nomatch hgoing.symm.trans hstopped
    tracks := fun hgoing hsound => .inr ?_ }
  have htracks : Tracks s := h.tracks_of hgoing hsound fun hstuck =>
    nomatch hactive.symm.trans hstuck.closing
  have hresolving : s.connectionState ≠ .resolving := by rw [hactive]; decide
  exact { htracks with
    cursor := { htracks.cursor with }
    live := fun _ => htracks.live (.inl hactive)
    shut := by rintro (h | h) <;> cases h
    waiting := fun hpending => absurd (htracks.waiting hpending) hresolving
    querying := fun hquery => absurd (htracks.querying hquery).1 hresolving
    dialing := fun hyes => nomatch (htracks.quiet (by rw [hactive]; decide)
      (by rw [hactive]; decide)).symm.trans hyes }

theorem reconnectDue_tries (h : Tries s) (hsound : s.trapped = false) (hsocket : c.socket = true)
    (hwaiting : s.connectionState = .backingOff) : Tries (connectOrBackOff c s) := by
  have hgoing := h.going (by rw [hwaiting]; decide)
  have htracks : Tracks s := h.tracks_of hgoing hsound fun hstuck =>
    nomatch hwaiting.symm.trans hstuck.closing
  obtain ⟨hshut, hafter⟩ := htracks.shut (.inr hwaiting)
  have hquiet := htracks.quiet (by rw [hwaiting]; decide) (by rw [hwaiting]; decide)
  have hidle := (htracks.idle (by rw [hwaiting]; decide)).1
  exact connectOrBackOff_tries ⟨h, htracks, hgoing, hsound, hshut, hquiet, hidle⟩ hafter hsocket

/-- A connection that carries HTTP/2 is lost. -/
theorem transportFailure_tries (h : Tries s) (hlive : s.Live) : Tries (handleTransportFailure s) :=
  handleTransportFailure_tries h fun _ _ htracks => htracks.settled_of_live hlive

theorem Tries.guard {p : Prop} [Decidable p] {t : Impl α} (h : Tries s) (ht : p → Tries t) :
    Tries (if p then t else s) := by
  split
  · next hp => exact ht hp
  · exact h

theorem react_tries (h : Tries s) (hsound : s.trapped = false)
    (hsocket : event.socketCreated = true) (hunbroken : Unbroken s event) :
    Tries (react s event) := by
  have hshakes (hhandshaking : s.connectionState = .handshaking) :
      s.connectionState ≠ .resolving := by rw [hhandshaking]; decide
  cases event with
  | resolved result => exact h.guard fun hquery => onResolved_tries h hquery result
  | async handshake c idle commandFails =>
    exact onAsync_tries h hsound hsocket handshake idle commandFails hunbroken
  | connectDone result => exact h.guard fun hactive => onConnect_tries h hsound hactive result
  | readFailed idle =>
    unfold react
    dsimp only
    split
    · next hhandshaking => exact failConnectionCandidate_tries h (hshakes hhandshaking)
    split
    · exact beginReconnect_tries h
    · exact h.guard fun hlive => transportFailure_tries h hlive
  | read handshake =>
    exact h.guard fun hhandshaking => shakeHands_tries h hhandshaking hsound handshake
  | settings => exact h.guard fun _ => onSettings_tries h
  | goaway => exact h.guard fun hactive => goaway_tries h hactive
  | transportFailed => exact h.guard fun hlive => transportFailure_tries h hlive
  | writeFailed =>
    -- in a handshake the remaining candidates are dropped, so there must be none
    refine h.guard fun hstate => ?_
    rcases hstate with hhandshaking | hlive
    · exact handleTransportFailure_tries h fun _ hreconnects htracks =>
        htracks.cursor.settled (hunbroken hhandshaking hreconnects)
    · exact transportFailure_tries h hlive
  | handshakeTimeout =>
    exact h.guard fun hhandshaking => failConnectionCandidate_tries h (hshakes hhandshaking)
  | reconnectDue c => exact h.guard fun hwaiting => reconnectDue_tries h hsound hsocket hwaiting
  | tcpClosed c =>
    exact h.guard fun hclosable =>
      onTcpClosed_tries h hsound hclosable.1 (by simpa using hclosable.2) hsocket
  | close =>
    refine { h with
      stopped := fun hstopped => ⟨(h.stopped hstopped).1, rfl⟩
      tracks := fun hgoing hsound => ?_ }
    exact (h.tracks hgoing hsound).imp (fun hstuck => { hstuck with }) fun htracks =>
      { htracks with cursor := { htracks.cursor with } }
  | stop => exact h.beginStop

theorem step_tries (h : Tries s) (hevent : event.socketCreated = true ∧ Unbroken s event) :
    Tries (step s event) := by
  unfold step
  split
  · exact h
  · next hsound => exact react_tries h (by simpa using hsound) hevent.1 hevent.2

theorem launch_tries (options : Option ReconnectOptions) (tls : Bool) (hsocket : c.socket = true) :
    Tries (launch (none : Option α) options tls c) := by
  have htracks : Tracks (Impl.new (none : Option α) options tls) :=
    { cursor := ⟨nofun, fun _ => settled_of_round_none rfl⟩
      after := nofun
      live := fun _ => nofun
      socket := fun _ => rfl
      shut := by rintro (h | h) <;> cases h
      waiting := nofun
      querying := nofun
      dialing := nofun }
  have hnew : Tries (Impl.new (none : Option α) options tls) :=
    ⟨rfl, recorded_nil, nofun, fun _ _ => .inr htracks⟩
  exact connectOrBackOff_tries ⟨hnew, htracks, rfl, rfl, rfl, rfl, rfl⟩ rfl hsocket

/-- The candidates of a host name are tried in the order of the resolution, each at most once and
each after the socket before it is closed; a resolution or a backoff follows only when all were
tried or one was active. -/
theorem candidates_tried_in_order (options : Option ReconnectOptions) (tls : Bool) (c : Choices)
    (hsocket : c.socket = true) (events : List (Event α))
    (hevents : Run.Meets step (fun s event => event.socketCreated = true ∧ Unbroken s event)
      (launch none options tls c) events) (note : Note α) (before : List (Note α))
    (hnote : note :: before <:+ (Run.final step (launch none options tls c) events).log) :
    Orderly note before := by
  have htries := Run.invariant (fun _ _ => step_tries) (launch_tries options tls hsocket) hevents
  exact htries.history note before hnote

/-- The first address of two refuses, the second becomes active. -/
def secondCandidate : List (Event ℕ) :=
  [.resolved (.addresses [0, 1]), .async .progress {} false false, .connectDone .failed,
    .tcpClosed {}, .connectDone (.connected {} .progress), .writeFailed]

theorem candidates_tried_in_order_secondCandidate :
    (Run.final step (launch none none true {}) secondCandidate).log =
      [.attempt 1, .closed, .attempt 0, .resolved [0, 1], .resolving] ∧
    Orderly (.attempt 1) [.closed, .attempt 0, .resolved [0, 1], .resolving] := by
  have hlog : (Run.final step (launch none none true {}) secondCandidate).log =
      [.attempt 1, .closed, .attempt 0, .resolved [0, 1], .resolving] := by decide
  refine ⟨hlog, candidates_tried_in_order none true {} rfl secondCandidate ?_ _ _ (by rw [hlog])⟩
  simp [secondCandidate, Run.Meets, Unbroken, Event.socketCreated]
  decide

/-- A write fails in the handshake of the first address of two. -/
def brokenHandshake : List (Event ℕ) :=
  [.resolved (.addresses [0, 1]), .async .progress {} false false,
    .connectDone (.connected {} .progress), .writeFailed, .tcpClosed {}]

theorem backoff_before_second_candidate :
    (∀ event ∈ brokenHandshake, event.socketCreated = true) ∧
    ∃ note before, note :: before <:+ (Run.final step
        (launch none (some { allowInitialOffline := true }) true {}) brokenHandshake).log ∧
      ¬ Orderly note before := by
  refine ⟨by decide, .backoff 1000000000 800000000,
    [.closed, .attempt 0, .resolved [0, 1], .resolving], ?_, ?_⟩
  · have hlog : (Run.final step (launch none (some { allowInitialOffline := true }) true {})
        brokenHandshake).log = [.backoff 1000000000 800000000, .closed, .attempt 0,
          .resolved [0, 1], .resolving] := by decide
    rw [hlog]
  · intro hsettled
    simpa using hsettled _ rfl

end Candidates

/-! ## What the log says about the delays -/

section Delays

/-- The bases of the reconnects since the last reset, newest first. -/
def bases : List (Note α) → List ℕ
  | [] => []
  | .backoff base _ :: log => base :: bases log
  | .reset :: _ => []
  | _ :: log => bases log

/-- The last connection was activated after a reconnect had been scheduled. -/
def earned : List (Note α) → Bool
  | [] => false
  | .active :: log => !(bases log).isEmpty
  | .attempt _ :: _ => false
  | _ :: log => earned log

def Scheduled (options : ReconnectOptions) : Note α → List (Note α) → Prop
  | .backoff base delay, before =>
    (bases before = [] → base = options.initialBackoffNs.toNat) ∧
    (∀ last ∈ (bases before).head?, last ≤ base) ∧ base ≤ options.maxBackoffNs.toNat ∧
    base - spread options base ≤ delay ∧
    delay ≤ min (base + spread options base) options.maxBackoffNs.toNat
  | .reset, before => earned before = true
  | _, _ => True

structure Paced (options : ReconnectOptions) (s : Impl α) : Prop where
  reconnects : s.reconnectOptions = some options
  sound : s.trapped = false
  history : Recorded (Scheduled options) s.log
  bounded : s.reconnectBackoffNs ≤ options.maxBackoffNs.toNat
  first : bases s.log = [] → s.reconnectBackoffNs = options.initialBackoffNs.toNat
  last : ∀ base ∈ (bases s.log).head?, base ≤ s.reconnectBackoffNs
  attempts : bases s.log = [] → s.reconnectAttempt = 0
  armed : s.pendingReset = true → bases s.log ≠ []
  pending : s.Live → s.pendingReset = true → earned s.log = true

/-- The base has not been lowered below `base` on the way to `s`. -/
structure Advances (options : ReconnectOptions) (base : ℕ) (s : Impl α) : Prop where
  paced : Paced options s
  base_le : base ≤ s.reconnectBackoffNs

variable {options : ReconnectOptions} {s : Impl α} {c : Choices}

theorem Advances.trans {base : ℕ} {t : Impl α} (h : Advances options base s)
    (h' : Advances options s.reconnectBackoffNs t) : Advances options base t :=
  ⟨h'.paced, h.base_le.trans h'.base_le⟩

section

variable (h : Paced options s)

include h

theorem beginStop_paced : Advances options s.reconnectBackoffNs (beginStop s) := by
  unfold beginStop
  split
  · exact ⟨h, le_rfl⟩
  · exact ⟨{ h with pending := fun hlive => absurd hlive (not_live_of_closing rfl) }, le_rfl⟩

/-- A backoff takes the current base and raises the next one. -/
theorem scheduleReconnect_paced (hvalid : options.Valid) :
    Advances options s.reconnectBackoffNs (scheduleReconnect c s) := by
  obtain ⟨delay, hdelay, hlow, hhigh⟩ := jitterReconnectBackoffNs_spec hvalid h.bounded c.random
  have hnext := le_nextReconnectBackoffNs hvalid h.bounded
  unfold scheduleReconnect
  rw [h.reconnects]
  dsimp only
  split
  · exact beginStop_paced h
  · rw [hdelay]
    have hwaits : Advances options s.reconnectBackoffNs { clearResolvedAddresses s with
        connectionState := .backingOff
        reconnectAfterClose := false
        reconnectBackoffNs := nextReconnectBackoffNs options s.reconnectBackoffNs
        reconnectAttempt := min (s.reconnectAttempt + 1) (2 ^ 32 - 1)
        log := .backoff s.reconnectBackoffNs delay :: s.log } := by
      refine ⟨{ h with
        history := h.history.cons ⟨h.first, h.last, h.bounded, hlow, hhigh⟩
        bounded := nextReconnectBackoffNs_le_max
        first := nofun
        last := fun base hbase => ?_
        attempts := nofun
        armed := fun _ => List.cons_ne_nil _ _
        pending := by rintro (hlive | hlive) <;> cases hlive }, hnext⟩
      cases hbase
      exact hnext
    dsimp only
    split
    · exact hwaits
    · exact hwaits.trans (beginStop_paced hwaits.paced)

theorem connectTo_paced (address : α) :
    Advances options s.reconnectBackoffNs (connectTo c address s).1 := by
  have hconnecting : Paced options
      { s with tcpInitialized := true, connectionState := .connecting } :=
    { h with pending := by rintro (hlive | hlive) <;> cases hlive }
  unfold connectTo
  split
  · exact ⟨h, le_rfl⟩
  dsimp only
  split
  · exact beginStop_paced hconnecting
  · exact ⟨{ hconnecting with
      history := h.history.cons trivial
      pending := by rintro (hlive | hlive) <;> cases hlive }, le_rfl⟩

theorem startConnection_paced :
    Advances options s.reconnectBackoffNs (startConnection c s).1 := by
  unfold startConnection
  split
  · exact connectTo_paced h _
  split
  · exact ⟨{ h with
      history := h.history.cons trivial
      pending := by rintro (hlive | hlive) <;> cases hlive }, le_rfl⟩
  · exact ⟨h, le_rfl⟩
  · split
    · exact ⟨h, le_rfl⟩
    · exact connectTo_paced (s := { s with nextAddress := s.nextAddress + 1 }) { h with } _
  · exact ⟨h, le_rfl⟩
  · exact ⟨h, le_rfl⟩

theorem connectOrBackOff_paced (hvalid : options.Valid) :
    Advances options s.reconnectBackoffNs (connectOrBackOff c s) := by
  have hstarted := startConnection_paced h (c := c)
  unfold connectOrBackOff
  split
  · next heq => simpa only [heq] using hstarted
  · next heq =>
    simp only [heq] at hstarted
    exact hstarted.trans (scheduleReconnect_paced hstarted.paced hvalid)

theorem failConnectionCandidate_paced :
    Advances options s.reconnectBackoffNs (failConnectionCandidate s) := by
  have hclosed (after : Bool) : Paced options { s with
      reconnectAfterClose := after, connectionState := .closing, tlsSession := false } :=
    { h with pending := fun hlive => absurd hlive (not_live_of_closing rfl) }
  unfold failConnectionCandidate
  split
  · split
    · exact beginStop_paced h
    · exact ⟨hclosed true, le_rfl⟩
  · exact ⟨hclosed false, le_rfl⟩

theorem handleTransportFailure_paced :
    Advances options s.reconnectBackoffNs (handleTransportFailure s) := by
  unfold handleTransportFailure
  split
  · exact ⟨h, le_rfl⟩
  split
  · exact beginStop_paced h
  · exact ⟨{ h with pending := fun hlive => absurd hlive (not_live_of_closing rfl) }, le_rfl⟩

theorem beginReconnect_paced : Advances options s.reconnectBackoffNs (beginReconnect s) := by
  unfold beginReconnect
  split
  · exact ⟨h, le_rfl⟩
  · exact ⟨{ h with pending := fun hlive => absurd hlive (not_live_of_closing rfl) }, le_rfl⟩

/-- A reset is due after an activation only if a reconnect was scheduled. -/
theorem activateConnection_paced (activation : Activation) :
    Advances options s.reconnectBackoffNs (activateConnection activation s).1 := by
  have hactive (ever reset : Bool) (hreset : reset = true → bases s.log ≠ []) :
      Paced options { clearResolvedAddresses s with
        connectionState := .active, log := .active :: s.log, everActive := ever
        pendingReset := reset } :=
    { h with
      history := h.history.cons trivial
      armed := hreset
      pending := fun _ hyes => by simpa [earned] using hreset hyes }
  unfold activateConnection
  dsimp only
  split
  · exact ⟨hactive _ _ h.armed, le_rfl⟩
  · have harmed : (s.reconnectAttempt != 0) = true → bases s.log ≠ [] := by
      intro hattempt hnone
      simp [h.attempts hnone] at hattempt
    split
    · exact ⟨hactive _ _ harmed, le_rfl⟩
    · exact handleTransportFailure_paced (hactive _ _ harmed)

theorem shakeHands_paced (handshake : Handshake) :
    Advances options s.reconnectBackoffNs (shakeHands handshake s) := by
  have hdriven : Advances options s.reconnectBackoffNs (driveTlsHandshake handshake s).1 := by
    cases handshake with
    | progress | failed => exact ⟨h, le_rfl⟩
    | complete activation plaintext =>
      have hactive := activateConnection_paced h activation
      unfold driveTlsHandshake
      dsimp only
      split
      · next heq => simpa only [heq] using hactive
      · next heq => simpa only [heq] using hactive
  unfold shakeHands
  split
  · next heq => simpa only [heq] using hdriven
  · next heq =>
    simp only [heq] at hdriven
    exact hdriven.trans (failConnectionCandidate_paced hdriven.paced)

theorem onConnect_paced (result : ConnectResult) :
    Advances options s.reconnectBackoffNs (onConnect result s) := by
  have hconnected : Paced options { s with connectActive := false } := { h with }
  unfold onConnect
  cases result with
  | failed =>
    dsimp only
    split
    · exact failConnectionCandidate_paced hconnected
    · exact ⟨{ h with pending := fun hlive => absurd hlive (not_live_of_closing rfl) }, le_rfl⟩
  | optionFailed => exact failConnectionCandidate_paced hconnected
  | connected activation handshake =>
    have hshaking :
        Paced options { s with connectActive := false, connectionState := .handshaking } :=
      { h with pending := by rintro (hlive | hlive) <;> cases hlive }
    have hactive := activateConnection_paced hconnected activation
    dsimp only
    split
    · exact beginStop_paced hconnected
    split
    · exact shakeHands_paced hshaking handshake
    split
    · next heq => simpa only [heq] using hactive
    · next heq =>
      simp only [heq] at hactive
      exact hactive.trans (handleTransportFailure_paced hactive.paced)

theorem onTcpClosed_paced (hvalid : options.Valid) :
    Advances options s.reconnectBackoffNs (onTcpClosed c s) := by
  have hclosed : Paced options { s with tcpInitialized := false, log := .closed :: s.log } :=
    { h with history := h.history.cons trivial }
  unfold onTcpClosed
  dsimp only
  split
  · exact ⟨hclosed, le_rfl⟩
  split
  · exact ⟨hclosed, le_rfl⟩
  split
  · exact ⟨hclosed, le_rfl⟩
  split
  · exact scheduleReconnect_paced hclosed hvalid
  · exact connectOrBackOff_paced hclosed hvalid

theorem continueResolvedConnection_paced (hvalid : options.Valid) :
    Advances options s.reconnectBackoffNs (continueResolvedConnection c s) := by
  unfold continueResolvedConnection
  split
  · exact ⟨h, le_rfl⟩
  split
  · exact ⟨h, le_rfl⟩
  · exact ⟨h, le_rfl⟩
  · exact connectOrBackOff_paced h hvalid
  · exact scheduleReconnect_paced h hvalid
  · exact scheduleReconnect_paced h hvalid

theorem onAsync_paced (hvalid : options.Valid) (handshake : Handshake) (idle commandFails : Bool) :
    Advances options s.reconnectBackoffNs (onAsync handshake c idle commandFails s) := by
  have hwoken : Advances options s.reconnectBackoffNs (processStreamWakes commandFails s) := by
    unfold processStreamWakes
    split
    · exact handleTransportFailure_paced h
    · exact ⟨h, le_rfl⟩
  unfold onAsync
  split
  · exact beginStop_paced h
  dsimp only
  split
  · exact hwoken.trans (continueResolvedConnection_paced hwoken.paced hvalid)
  · split
    · exact hwoken.trans (beginReconnect_paced hwoken.paced)
    · exact hwoken
  · exact hwoken.trans (shakeHands_paced hwoken.paced handshake)
  · exact hwoken

theorem onResolved_paced (result : ResolveResult α) :
    Advances options s.reconnectBackoffNs (onResolved result s) := by
  cases result with
  | addresses => exact ⟨{ h with history := h.history.cons trivial }, le_rfl⟩
  | failed | cancelled => exact ⟨{ h with }, le_rfl⟩

omit h in
theorem Advances.guard {p : Prop} [Decidable p] {base : ℕ} {t : Impl α}
    (h : Advances options base s) (ht : p → Advances options base t) :
    Advances options base (if p then t else s) := by
  split
  · next hp => exact ht hp
  · exact h

/-- Only a SETTINGS frame lowers the base. -/
theorem react_paced (hvalid : options.Valid) {event : Event α} (hsettings : event ≠ .settings) :
    Advances options s.reconnectBackoffNs (react s event) := by
  have hsame : Advances options s.reconnectBackoffNs s := ⟨h, le_rfl⟩
  cases event with
  | settings => exact absurd rfl hsettings
  | resolved result =>
    exact hsame.guard fun _ =>
      onResolved_paced (s := { s with queryActive := false }) { h with } result
  | async handshake c idle commandFails => exact onAsync_paced h hvalid handshake idle commandFails
  | connectDone result => exact hsame.guard fun _ => onConnect_paced h result
  | readFailed idle =>
    unfold react
    dsimp only
    split
    · exact failConnectionCandidate_paced h
    split
    · exact beginReconnect_paced h
    · exact hsame.guard fun _ => handleTransportFailure_paced h
  | read handshake => exact hsame.guard fun _ => shakeHands_paced h handshake
  | goaway =>
    exact hsame.guard fun hactive =>
      ⟨{ h with pending := fun _ => h.pending (.inl hactive) }, le_rfl⟩
  | transportFailed | writeFailed => exact hsame.guard fun _ => handleTransportFailure_paced h
  | handshakeTimeout => exact hsame.guard fun _ => failConnectionCandidate_paced h
  | reconnectDue c => exact hsame.guard fun _ => connectOrBackOff_paced h hvalid
  | tcpClosed c => exact hsame.guard fun _ => onTcpClosed_paced h hvalid
  | close => exact ⟨{ h with }, le_rfl⟩
  | stop => exact beginStop_paced h

theorem onSettings_paced (hlive : s.Live) (hvalid : options.Valid) :
    Paced options (onSettings s) := by
  unfold onSettings
  split
  · next hpending =>
    split
    · next hnone => exact nomatch hnone.symm.trans h.reconnects
    · next hsome =>
      cases hsome.symm.trans h.reconnects
      exact { h with
        history := h.history.cons (h.pending hlive hpending)
        bounded := hvalid.ordered
        first := fun _ => rfl
        last := nofun
        attempts := fun _ => rfl
        armed := nofun
        pending := fun _ => nofun }
  · exact h

theorem step_paced (hvalid : options.Valid) (event : Event α) : Paced options (step s event) := by
  rw [step, if_neg (by simp [h.sound])]
  by_cases hsettings : event = .settings
  · subst hsettings
    unfold react
    dsimp only
    split
    · next hlive => exact onSettings_paced h hlive hvalid
    · exact h
  · exact (react_paced h hvalid hsettings).paced

end

/-- The bases start at the initial backoff, grow up to the maximum and start over only with a
SETTINGS frame on a connection that was activated after a reconnect; the delays lie around them, and
no computation traps. -/
theorem reconnect_backoff (options : ReconnectOptions)
    (haccepted : validateReconnectOptions options = true) (literal : Option α) (tls : Bool)
    (c : Choices) (events : List (Event α)) :
    let s := Run.final step (launch literal (some options) tls c) events
    s.trapped = false ∧
    (∀ note before, note :: before <:+ s.log → Scheduled options note before) ∧
    ∀ event, (step s event).reconnectBackoffNs < s.reconnectBackoffNs → event = .settings := by
  have hvalid := valid_of_validate haccepted
  have hnew : Paced options (Impl.new literal (some options) tls) :=
    ⟨rfl, rfl, recorded_nil, hvalid.ordered, fun _ => rfl, nofun, fun _ =>
      rfl, nofun, fun _ => nofun⟩
  have hlaunch : Paced options (launch literal (some options) tls c) :=
    (connectOrBackOff_paced hnew hvalid).paced
  have hfinal := Run.invariant_always (I := Paced options)
    (fun _ event h => step_paced h hvalid event) events hlaunch
  refine ⟨hfinal.sound, hfinal.history, fun event hlower => ?_⟩
  by_contra hsettings
  rw [step, if_neg (by simp [hfinal.sound])] at hlower
  exact absurd (react_paced hfinal hvalid hsettings).base_le (Nat.not_le.2 hlower)

theorem reconnect_backoff_default :
    (Run.final step (launch (some 0) (some {}) false {})
      [.connectDone (.connected {} .progress), .transportFailed, .tcpClosed {}]).log =
      [.backoff 1000000000 800000000, .closed, .active, .attempt 0] ∧
    Scheduled {} (.backoff 1000000000 800000000) [.closed, .active, .attempt 0] := by
  have hlog : (Run.final step (launch (some 0) (some {}) false {})
      [.connectDone (.connected {} .progress), .transportFailed, .tcpClosed {}]).log =
      [.backoff 1000000000 800000000, .closed, .active, .attempt 0] := by decide
  exact ⟨hlog, (reconnect_backoff {} (by decide) (some 0) false {} _).2.1 _ _ (by rw [hlog])⟩

end Delays

end GrpcLite.Establish
