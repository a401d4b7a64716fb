import GrpcLite.Lib.Run
import Mathlib.Data.Nat.Basic
import Mathlib.Order.Basic

/-!
# Starting and shutting down a server

`Server.start`, `requestShutdown` and the lifecycle of the reactors.  A step is one critical
section of the coordinator's lock or of a reactor's lock, so that any number of threads that shut
the server down are interleaved with the starting thread and with the reactor threads.  Starting
a reactor holds the coordinator's lock over two critical sections of the reactor's own.
-/

namespace GrpcLite.Server

inductive State where
  | initialized
  | starting
  | running
  | draining
  | stopping
  | stopped
  deriving DecidableEq, Repr

def State.rank : State → ℕ
  | .initialized => 0
  | .starting => 1
  | .running => 2
  | .draining => 3
  | .stopping => 4
  | .stopped => 5

instance : LinearOrder State :=
  LinearOrder.lift' State.rank fun a b h => by cases a <;> cases b <;> first | rfl | cases h

inductive ShutdownRequest where
  | none
  | graceful
  | immediate
  deriving DecidableEq, Repr

def ShutdownRequest.rank : ShutdownRequest → ℕ
  | .none => 0
  | .graceful => 1
  | .immediate => 2

instance : LinearOrder ShutdownRequest :=
  LinearOrder.lift' ShutdownRequest.rank fun a b h => by
    cases a <;> cases b <;> first | rfl | cases h

/-! ## Reactors -/

/-- The lifecycle of an `Impl`.  `idleSeen` says that its thread is between the two critical
sections of `finishDrainIfIdle`. -/
structure Reactor where
  state : State := .initialized
  shutdownRequest : ShutdownRequest := .none
  drainTimeout : ℕ := 0
  startupError : Bool := false
  idleSeen : Bool := false
  deriving DecidableEq, Repr

def shutdownReactor (request : ShutdownRequest) (timeout : ℕ) (reactor : Reactor) : Reactor :=
  match reactor.state with
  | .initialized => { reactor with state := .stopped }
  | .starting =>
    if request = .immediate ∨ reactor.shutdownRequest = .none then
      { reactor with shutdownRequest := request, drainTimeout := timeout }
    else reactor
  | .running =>
    { reactor with
      shutdownRequest := request
      drainTimeout := timeout
      state := if request = .graceful then .draining else .stopping }
  | .draining =>
    if request = .immediate then
      { reactor with shutdownRequest := .immediate, state := .stopping }
    else reactor
  | .stopping | .stopped => reactor

def signalStarted (failed : Bool) (reactor : Reactor) : Reactor :=
  { reactor with
    startupError := failed
    state :=
      if failed then .stopped
      else match reactor.shutdownRequest with
        | .none => .running
        | .graceful => .draining
        | .immediate => .stopping }

/-- What a reactor's own thread does to its lifecycle: it reports how its setup went, finds that
a drain is complete, sees the drain timer, or leaves its loop, whether stopped or by an error. -/
inductive ReactorEvent where
  | signalStarted (failed : Bool)
  | drainIdle
  | drainStop
  | drainTimeout
  | loopEnded
  deriving DecidableEq, Repr

def Reactor.next (reactor : Reactor) : ReactorEvent → Reactor
  | .signalStarted failed =>
    if reactor.state = .starting then signalStarted failed reactor else reactor
  | .drainIdle => if reactor.state = .draining then { reactor with idleSeen := true } else reactor
  | .drainStop =>
    if reactor.idleSeen then { reactor with idleSeen := false, state := .stopping } else reactor
  | .drainTimeout =>
    if reactor.state = .draining ∧ ¬reactor.idleSeen then { reactor with state := .stopping }
    else reactor
  | .loopEnded =>
    if .running ≤ reactor.state ∧ ¬reactor.idleSeen then { reactor with state := .stopped }
    else reactor

namespace Reactor

structure Consistent (r : Reactor) : Prop where
  initialized : r.state = .initialized → r.shutdownRequest = .none
  running : r.state = .running → r.shutdownRequest = .none
  draining : r.state = .draining → .graceful ≤ r.shutdownRequest
  idle : r.idleSeen → .draining ≤ r.state ∧ r.state ≤ .stopping

/-- The reactor has recorded a request as strong as this one, or it stops anyway. -/
def Obeys (r : Reactor) (request : ShutdownRequest) : Prop :=
  request ≤ r.shutdownRequest ∨ .stopping ≤ r.state

structure Advances (r r' : Reactor) : Prop where
  state : r.state ≤ r'.state
  obeys : ∀ request, r.Obeys request → r'.Obeys request

theorem Advances.refl (r : Reactor) : r.Advances r := ⟨le_rfl, fun _ h => h⟩

end Reactor

theorem ShutdownRequest.none_le (request : ShutdownRequest) : .none ≤ request :=
  Nat.zero_le request.rank

theorem ShutdownRequest.le_immediate (request : ShutdownRequest) : request ≤ .immediate := by
  cases request <;> decide

theorem State.le_stopped (state : State) : state ≤ .stopped := by
  cases state <;> decide

variable {r : Reactor}

theorem Reactor.Advances.of_le {r' : Reactor} (hstate : r.state ≤ r'.state)
    (hrequest : r.shutdownRequest ≤ r'.shutdownRequest ∨ .stopping ≤ r'.state) : r.Advances r' := by
  refine ⟨hstate, fun request hobeys => ?_⟩
  rcases hobeys with hle | hstop
  · exact hrequest.imp hle.trans id
  · exact .inr (hstop.trans hstate)

section

variable (h : r.Consistent)

include h

theorem shutdownReactor_advances (request : ShutdownRequest) (timeout : ℕ) :
    r.Advances (shutdownReactor request timeout r) := by
  unfold shutdownReactor
  split
  · exact .of_le (State.le_stopped _) (.inr (State.le_stopped _))
  · split
    · rename_i hstronger
      refine .of_le le_rfl (.inl ?_)
      rcases hstronger with rfl | hnone
      · exact ShutdownRequest.le_immediate _
      · rw [hnone]
        exact ShutdownRequest.none_le _
    · exact .refl r
  · rename_i hstate
    have hnone := h.running hstate
    refine .of_le ?_ (.inl ?_)
    · rw [hstate]
      dsimp only
      split <;> decide
    · rw [hnone]
      exact ShutdownRequest.none_le _
  · rename_i hstate
    split
    · refine .of_le ?_ (.inr le_rfl)
      rw [hstate]
      dsimp only
      decide
    · exact .refl r
  · exact .refl r
  · exact .refl r

theorem shutdownReactor_obeys (request : ShutdownRequest) (timeout : ℕ) :
    (shutdownReactor request timeout r).Obeys request := by
  unfold shutdownReactor
  split
  · exact .inr (State.le_stopped _)
  · split
    · exact .inl le_rfl
    · rename_i hweaker
      rw [not_or] at hweaker
      refine .inl ?_
      cases request with
      | none => exact ShutdownRequest.none_le _
      | immediate => exact absurd rfl hweaker.1
      | graceful =>
        cases hrequest : r.shutdownRequest with
        | none => exact absurd hrequest hweaker.2
        | graceful => exact le_rfl
        | immediate => exact ShutdownRequest.le_immediate _
  · exact .inl le_rfl
  · rename_i hstate
    split
    · exact .inr le_rfl
    · rename_i hweaker
      refine .inl (le_trans ?_ (h.draining hstate))
      cases request with
      | none => exact ShutdownRequest.none_le _
      | graceful => exact le_rfl
      | immediate => exact absurd rfl hweaker
  · rename_i hstate
    exact .inr hstate.ge
  · rename_i hstate
    exact .inr (by rw [hstate]; decide)

theorem shutdownReactor_consistent {request : ShutdownRequest} (timeout : ℕ)
    (hrequest : request ≠ .none) : (shutdownReactor request timeout r).Consistent := by
  unfold shutdownReactor
  split
  · rename_i hstate
    exact ⟨nofun, nofun, nofun, fun hidle => absurd (h.idle hidle).1 (by rw [hstate]; decide)⟩
  · rename_i hstate
    split
    · exact {
        initialized := fun hother => by cases hstate.symm.trans hother
        running := fun hother => by cases hstate.symm.trans hother
        draining := fun hother => by cases hstate.symm.trans hother
        idle := h.idle }
    · exact h
  · rename_i hstate
    cases request with
    | none => exact absurd rfl hrequest
    | graceful =>
      exact ⟨nofun, nofun, fun _ => le_rfl,
        fun hidle => absurd (h.idle hidle).1 (by rw [hstate]; decide)⟩
    | immediate =>
      exact ⟨nofun, nofun, nofun, fun hidle => absurd (h.idle hidle).1 (by rw [hstate]; decide)⟩
  · split
    · exact ⟨nofun, nofun, nofun, fun _ => ⟨by dsimp only; decide, le_rfl⟩⟩
    · exact h
  · exact h
  · exact h

theorem Reactor.next_advances (event : ReactorEvent) :
    r.Advances (r.next event) := by
  cases event with
  | signalStarted failed =>
    rw [next]
    split
    · rename_i hstate
      refine .of_le ?_ (.inl le_rfl)
      rw [hstate, signalStarted]
      dsimp only
      cases failed <;> cases r.shutdownRequest <;> decide
    · exact .refl r
  | drainIdle =>
    rw [next]
    split
    · exact .of_le le_rfl (.inl le_rfl)
    · exact .refl r
  | drainStop =>
    rw [next]
    split
    · rename_i hidle
      exact .of_le (h.idle hidle).2 (.inl le_rfl)
    · exact .refl r
  | drainTimeout =>
    rw [next]
    split
    · rename_i hdraining
      refine .of_le ?_ (.inl le_rfl)
      rw [hdraining.1]
      dsimp only
      decide
    · exact .refl r
  | loopEnded =>
    rw [next]
    split
    · exact .of_le (State.le_stopped _) (.inl le_rfl)
    · exact .refl r

theorem Reactor.next_consistent (event : ReactorEvent) :
    (r.next event).Consistent := by
  cases event with
  | signalStarted failed =>
    rw [next]
    split
    · rename_i hstate
      have hbusy : r.idleSeen = false := by
        by_contra hidle
        exact absurd (h.idle (by simpa using hidle)).1 (by rw [hstate]; decide)
      unfold signalStarted
      cases failed with
      | true =>
        exact ⟨nofun, nofun, nofun, fun hidle => by cases hbusy.symm.trans hidle⟩
      | false =>
        cases r.shutdownRequest with
        | none =>
          exact ⟨nofun, fun _ => rfl, nofun, fun hidle =>
            by cases hbusy.symm.trans hidle⟩
        | graceful =>
          exact ⟨nofun, nofun, fun _ => le_rfl, fun hidle =>
            by cases hbusy.symm.trans hidle⟩
        | immediate =>
          exact ⟨nofun, nofun, nofun, fun hidle => by cases hbusy.symm.trans hidle⟩
    · exact h
  | drainIdle =>
    rw [next]
    split
    · rename_i hstate
      exact { h with idle := fun _ => by rw [hstate]; decide }
    · exact h
  | drainStop =>
    rw [next]
    split
    · exact ⟨nofun, nofun, nofun, nofun⟩
    · exact h
  | drainTimeout =>
    rw [next]
    split
    · rename_i hdraining
      exact ⟨nofun, nofun, nofun, fun hidle => absurd hidle hdraining.2⟩
    · exact h
  | loopEnded =>
    rw [next]
    split
    · rename_i hrunning
      exact ⟨nofun, nofun, nofun, fun hidle => absurd hidle hrunning.2⟩
    · exact h

end

/-! ## The coordinator and its callers -/

structure Coordinator where
  state : State := .initialized
  startInProgress : Bool := false
  launchedCount : ℕ := 0
  shutdownRequest : ShutdownRequest := .none
  drainTimeout : ℕ := 0
  deriving DecidableEq, Repr

def Coordinator.requestShutdown (c : Coordinator) (request : ShutdownRequest) (timeout : ℕ) :
    Coordinator :=
  let c := { c with
    state := match c.state with
      | .initialized => .stopped
      | .starting | .running => if request = .graceful then .draining else .stopping
      | .draining => if request = .immediate then .stopping else .draining
      | .stopping => .stopping
      | .stopped => .stopped }
  if request = .immediate ∨ c.shutdownRequest = .none then
    { c with shutdownRequest := request, drainTimeout := timeout }
  else c

/-- A call of `shutdown` or `shutdownGracefully`.  `pending` are the reactors that it has still to
tell, once it has left the coordinator's lock. -/
structure ShutdownCall where
  request : ShutdownRequest
  timeout : ℕ
  pending : Option (List ℕ) := .none
  deriving DecidableEq, Repr

/-- Where the thread that starts the server is.  While it is `relaying` it holds the
coordinator's lock. -/
inductive StartProgress where
  | idle
  | launching (index : ℕ)
  | relaying (index : ℕ) (request : ShutdownRequest) (timeout : ℕ)
  | waiting (index : ℕ)
  | finishing
  | rollingBack
  | delivering (pending : List ℕ)
  | joining (pending : List ℕ)
  | returned
  deriving DecidableEq, Repr

structure LifecycleWorld where
  coordinator : Coordinator := {}
  reactors : List Reactor
  calls : List ShutdownCall := []
  starter : StartProgress := .idle
  deriving DecidableEq, Repr

namespace LifecycleWorld

def initial (reactorCount : ℕ) : LifecycleWorld := { reactors := List.replicate reactorCount {} }

def locked (s : LifecycleWorld) : Bool :=
  match s.starter with
  | .relaying _ _ _ => true
  | _ => false

def modifyReactor (s : LifecycleWorld) (index : ℕ) (f : Reactor → Reactor) : LifecycleWorld :=
  { s with reactors := s.reactors.modify index f }

def targets (s : LifecycleWorld) : List ℕ :=
  let c := s.coordinator
  if c.state = .stopped ∧ ¬c.startInProgress ∧ c.launchedCount = 0 then
    List.range s.reactors.length
  else List.range c.launchedCount

def advanceCall (s : LifecycleWorld) (index : ℕ) : LifecycleWorld :=
  match s.calls[index]? with
  | none => s
  | some call =>
    match call.pending with
    | .none =>
      if s.locked then s
      else
        let s := { s with
          coordinator := s.coordinator.requestShutdown call.request call.timeout }
        { s with calls := s.calls.set index { call with pending := some s.targets } }
    | some [] => s
    | some (reactor :: rest) =>
      { s.modifyReactor reactor (shutdownReactor call.request call.timeout) with
        calls := s.calls.set index { call with pending := some rest } }

/-- The next critical section of `start`.  `ok` says whether the thread of a reactor can be
created and whether its address is the expected one. -/
def advanceStart (s : LifecycleWorld) (ok : Bool) : LifecycleWorld :=
  match s.starter with
  | .idle =>
    if s.coordinator.state ≠ .initialized then { s with starter := .returned }
    else { s with
      coordinator := { s.coordinator with state := .starting, startInProgress := true }
      starter := .launching 0 }
  | .launching index =>
    match s.reactors[index]? with
    | none => { s with starter := .finishing }
    | some reactor =>
      if reactor.state ≠ .initialized ∨ ¬ok then { s with starter := .rollingBack }
      else
        { s.modifyReactor index ({ · with state := .starting }) with
          coordinator := { s.coordinator with launchedCount := index + 1 }
          starter := .relaying index s.coordinator.shutdownRequest s.coordinator.drainTimeout }
  | .relaying index request timeout =>
    let s := if request = .none then s else s.modifyReactor index (shutdownReactor request timeout)
    { s with starter := .waiting index }
  | .waiting index =>
    match s.reactors[index]? with
    | none => s
    | some reactor =>
      if reactor.state = .starting then s
      else if reactor.startupError ∨ ¬ok then { s with starter := .rollingBack }
      else { s with starter := .launching (index + 1) }
  | .finishing =>
    { s with
      coordinator := { s.coordinator with
        startInProgress := false
        state := match s.coordinator.shutdownRequest with
          | .none => .running
          | .graceful => .draining
          | .immediate => .stopping }
      starter := .returned }
  | .rollingBack =>
    { s with
      coordinator := { s.coordinator with
        shutdownRequest := .immediate
        state := .stopped
        startInProgress := false }
      starter := .delivering (List.range s.coordinator.launchedCount) }
  | .delivering [] => { s with starter := .joining (List.range s.coordinator.launchedCount) }
  | .delivering (reactor :: rest) =>
    { s.modifyReactor reactor (shutdownReactor .immediate 0) with starter := .delivering rest }
  | .joining [] => { s with starter := .returned }
  | .joining (reactor :: rest) =>
    if (s.reactors[reactor]?.map (·.state)) = some .stopped then
      { s with starter := .joining rest }
    else s
  | .returned => s

inductive Event where
  | shutdown
  | shutdownGracefully (timeout : ℕ)
  | call (index : ℕ)
  | start (ok : Bool)
  | reactor (index : ℕ) (event : ReactorEvent)
  deriving DecidableEq, Repr

def step (s : LifecycleWorld) : Event → LifecycleWorld
  | .shutdown => { s with calls := s.calls ++ [⟨.immediate, 0, .none⟩] }
  | .shutdownGracefully timeout => { s with calls := s.calls ++ [⟨.graceful, timeout, .none⟩] }
  | .call index => s.advanceCall index
  | .start ok => s.advanceStart ok
  | .reactor index event => s.modifyReactor index (·.next event)

/-! ## What is never taken back -/

def Advances (s s' : LifecycleWorld) : Prop :=
  ∀ (i : ℕ) (r r' : Reactor), s.reactors[i]? = some r → s'.reactors[i]? = some r' → r.Advances r'

/-- The coordinator's state while the server is being started. -/
def startingState : ShutdownRequest → State
  | .none => .starting
  | .graceful => .draining
  | .immediate => .stopping

structure Starting (c : Coordinator) : Prop where
  inProgress : c.startInProgress = true
  state : c.state = startingState c.shutdownRequest

def StarterSound (c : Coordinator) : StartProgress → Prop
  | .idle => c.launchedCount = 0
  | .launching index => Starting c ∧ c.launchedCount = index
  | .relaying index request _ =>
    Starting c ∧ c.launchedCount = index + 1 ∧ request = c.shutdownRequest
  | .waiting index => Starting c ∧ c.launchedCount = index + 1
  | .finishing | .rollingBack => Starting c
  | .delivering _ | .joining _ | .returned => True

/-- The starting thread has still to tell this reactor what was requested. -/
def StarterTells : StartProgress → ℕ → Prop
  | .relaying index _ _, i => i = index
  | .delivering pending, i => i ∈ pending
  | _, _ => False

/-- A call whose request is the strongest so far has still to tell this reactor. -/
def CallTells (s : LifecycleWorld) (i : ℕ) : Prop :=
  ∃ (j : ℕ) (call : ShutdownCall) (pending : List ℕ), s.calls[j]? = some call ∧
    call.pending = some pending ∧ i ∈ pending ∧ s.coordinator.shutdownRequest ≤ call.request

structure Sound (s : LifecycleWorld) : Prop where
  consistent : ∀ (i : ℕ) (r : Reactor), s.reactors[i]? = some r → r.Consistent
  issued : ∀ call ∈ s.calls, call.request ≠ .none
  known : ∀ call ∈ s.calls, call.pending.isSome → call.request ≤ s.coordinator.shutdownRequest
  covered : ∀ (i : ℕ) (r : Reactor), i < s.coordinator.launchedCount → s.reactors[i]? = some r →
    r.Obeys s.coordinator.shutdownRequest ∨ s.CallTells i ∨ StarterTells s.starter i
  unlaunched : ∀ (i : ℕ) (r : Reactor), s.coordinator.launchedCount ≤ i →
    s.reactors[i]? = some r → r.state = .initialized ∨ r.state = .stopped
  fresh : s.coordinator.state = .initialized → s.coordinator.shutdownRequest = .none
  starter : StarterSound s.coordinator s.starter

variable {s : LifecycleWorld} {j : ℕ} {f : Reactor → Reactor} {c : Coordinator}

theorem getElem?_modifyReactor {i : ℕ} {r' : Reactor}
    (h : (s.modifyReactor j f).reactors[i]? = some r') :
    ∃ r, s.reactors[i]? = some r ∧ (i = j ∧ r' = f r ∨ i ≠ j ∧ r' = r) := by
  rw [modifyReactor, List.getElem?_modify] at h
  obtain ⟨r, hr, rfl⟩ := Option.map_eq_some_iff.mp h
  refine ⟨r, hr, ?_⟩
  by_cases hij : j = i
  · exact .inl ⟨hij.symm, if_pos hij⟩
  · exact .inr ⟨fun h => hij h.symm, if_neg hij⟩

theorem Advances.refl (s : LifecycleWorld) : s.Advances s := by
  intro i r r' hr hr'
  obtain rfl : r = r' := Option.some.inj (hr.symm.trans hr')
  exact .refl r

theorem modifyReactor_advances (hf : ∀ r, s.reactors[j]? = some r → r.Advances (f r)) :
    s.Advances (s.modifyReactor j f) := by
  intro i r r' hr hr'
  obtain ⟨r₁, hr₁, hcases⟩ := getElem?_modifyReactor hr'
  obtain rfl : r = r₁ := Option.some.inj (hr.symm.trans hr₁)
  rcases hcases with ⟨rfl, rfl⟩ | ⟨_, rfl⟩
  · exact hf r hr
  · exact .refl r'

/-! ## Requests -/

theorem requestShutdown_state (c : Coordinator) (request : ShutdownRequest) (timeout : ℕ) :
    c.state ≤ (c.requestShutdown request timeout).state := by
  unfold Coordinator.requestShutdown
  have hstate : c.state ≤ (match c.state with
      | .initialized => .stopped
      | .starting | .running => if request = .graceful then .draining else .stopping
      | .draining => if request = .immediate then .stopping else .draining
      | .stopping => .stopping
      | .stopped => .stopped) := by
    cases c.state <;> cases request <;> decide
  dsimp only
  split <;> exact hstate

theorem requestShutdown_request (c : Coordinator) (request : ShutdownRequest) (timeout : ℕ) :
    (c.requestShutdown request timeout).shutdownRequest = max c.shutdownRequest request := by
  unfold Coordinator.requestShutdown
  dsimp only
  split
  · rename_i hstronger
    rcases hstronger with rfl | hnone
    · exact (max_eq_right (ShutdownRequest.le_immediate _)).symm
    · exact (max_eq_right (by rw [hnone]; exact ShutdownRequest.none_le _)).symm
  · cases request <;> cases hrequest : c.shutdownRequest <;> simp_all <;> decide

theorem requestShutdown_ne_initialized (c : Coordinator) (request : ShutdownRequest)
    (timeout : ℕ) : (c.requestShutdown request timeout).state ≠ .initialized := by
  unfold Coordinator.requestShutdown
  dsimp only
  cases c.state <;> cases request <;> simp <;> split <;> simp

theorem requestShutdown_launchedCount (c : Coordinator) (request : ShutdownRequest) (timeout : ℕ) :
    (c.requestShutdown request timeout).launchedCount = c.launchedCount := by
  unfold Coordinator.requestShutdown
  dsimp only
  split <;> rfl

theorem requestShutdown_starting (h : Starting c) {request : ShutdownRequest} (timeout : ℕ)
    (hrequest : request ≠ .none) : Starting (c.requestShutdown request timeout) := by
  have hprogress := h.inProgress
  unfold Coordinator.requestShutdown
  rw [h.state]
  cases request with
  | none => exact absurd rfl hrequest
  | graceful | immediate =>
    cases hold : c.shutdownRequest <;> exact ⟨by simp [hprogress], by simp [startingState]⟩

theorem StarterSound.request {starter : StartProgress} (h : StarterSound c starter)
    (hunlocked : ∀ i q t, starter ≠ .relaying i q t) {request : ShutdownRequest} (timeout : ℕ)
    (hrequest : request ≠ .none) : StarterSound (c.requestShutdown request timeout) starter := by
  have hlaunched := requestShutdown_launchedCount c request timeout
  cases starter with
  | idle => exact hlaunched.trans h
  | launching | waiting =>
    exact ⟨requestShutdown_starting h.1 timeout hrequest, hlaunched.trans h.2⟩
  | relaying index q t => exact absurd rfl (hunlocked index q t)
  | finishing | rollingBack => exact requestShutdown_starting h timeout hrequest
  | delivering | joining | returned => trivial

section Steps

variable {s : LifecycleWorld}

theorem Sound.modify (h : s.Sound) {j : ℕ} {f : Reactor → Reactor}
    (hconsistent : ∀ r : Reactor, r.Consistent → (f r).Consistent)
    (hadvances : ∀ r : Reactor, r.Consistent → r.Advances (f r))
    (hidle : ∀ r : Reactor, r.Consistent → r.state = .initialized ∨ r.state = .stopped →
      (f r).state = .initialized ∨ (f r).state = .stopped) :
    (s.modifyReactor j f).Sound := by
  refine ⟨fun i r' hr' => ?_, h.issued, h.known, fun i r' hi hr' => ?_,
    fun i r' hi hr' => ?_, h.fresh,
    h.starter⟩
  · obtain ⟨r, hr, ⟨_, rfl⟩ | ⟨_, rfl⟩⟩ := getElem?_modifyReactor hr'
    · exact hconsistent r (h.consistent i r hr)
    · exact h.consistent i r' hr
  · obtain ⟨r, hr, hcases⟩ := getElem?_modifyReactor hr'
    refine (h.covered i r hi hr).imp_left fun hobeys => ?_
    rcases hcases with ⟨_, rfl⟩ | ⟨_, rfl⟩
    · exact (hadvances r (h.consistent i r hr)).obeys _ hobeys
    · exact hobeys
  · obtain ⟨r, hr, ⟨_, rfl⟩ | ⟨_, rfl⟩⟩ := getElem?_modifyReactor hr'
    · exact hidle r (h.consistent i r hr) (h.unlaunched i r hi hr)
    · exact h.unlaunched i r' hi hr

variable {r : Reactor} {index : ℕ} {call : ShutdownCall}

theorem shutdownReactor_unlaunched (request : ShutdownRequest) (timeout : ℕ)
    (h : r.state = .initialized ∨ r.state = .stopped) :
    (shutdownReactor request timeout r).state = .initialized ∨
      (shutdownReactor request timeout r).state = .stopped := by
  unfold shutdownReactor
  rcases h with h | h
  · rw [h]
    exact .inr rfl
  · rw [h]
    exact .inr h

theorem next_unlaunched (event : ReactorEvent) (hr : r.Consistent)
    (h : r.state = .initialized ∨ r.state = .stopped) :
    (r.next event).state = .initialized ∨ (r.next event).state = .stopped := by
  cases event with
  | signalStarted | drainIdle =>
    rw [Reactor.next, if_neg (by rcases h with h | h <;> rw [h] <;> decide)]
    exact h
  | drainStop =>
    have hbusy : ¬r.idleSeen := by
      intro hidle
      obtain ⟨hlow, hhigh⟩ := hr.idle hidle
      rcases h with h | h <;> rw [h] at hlow hhigh
      · exact absurd hlow (by decide)
      · exact absurd hhigh (by decide)
    rw [Reactor.next, if_neg hbusy]
    exact h
  | drainTimeout =>
    rw [Reactor.next, if_neg (by rcases h with h | h <;> rw [h] <;> simp)]
    exact h
  | loopEnded =>
    rw [Reactor.next]
    split
    · exact .inr rfl
    · exact h

theorem Sound.tell (h : s.Sound) (j : ℕ) (request : ShutdownRequest) (timeout : ℕ)
    (hrequest : request ≠ .none) :
    (s.modifyReactor j (shutdownReactor request timeout)).Sound :=
  h.modify (fun _ hr => shutdownReactor_consistent hr timeout hrequest)
    (fun _ hr => shutdownReactor_advances hr request timeout)
    fun _ _ => shutdownReactor_unlaunched request timeout

theorem Sound.newCall (h : s.Sound) (call : ShutdownCall) (hrequest : call.request ≠ .none)
    (hpending : call.pending = none) : Sound { s with calls := s.calls ++ [call] } := by
  refine { h with
    issued := List.forall_mem_append.mpr ⟨h.issued, List.forall_mem_singleton.mpr hrequest⟩
    known := fun c hmem hsome => ?_
    covered := fun i r hi hr => ?_ }
  · rcases List.mem_append.mp hmem with hmem | hmem
    · exact h.known c hmem hsome
    · rw [List.mem_singleton.mp hmem, hpending] at hsome
      exact absurd hsome Bool.false_ne_true
  · refine (h.covered i r hi hr).imp_right (Or.imp_left ?_)
    rintro ⟨j, c, pending, hc, htell⟩
    have hj : j < s.calls.length := (List.getElem?_eq_some_iff.mp hc).1
    exact ⟨j, c, pending, by rw [List.getElem?_append_left hj, hc], htell⟩

theorem getElem?_set_self {calls : List ShutdownCall} {c : ShutdownCall}
    (hcall : calls[index]? = some call) : (calls.set index c)[index]? = some c :=
  List.getElem?_set_self (List.getElem?_eq_some_iff.mp hcall).1

theorem Sound.request (h : s.Sound) (hcall : s.calls[index]? = some call)
    (hnew : call.pending = none) (hunlocked : s.locked = false) {pending : List ℕ}
    (hpending : ∀ i < s.coordinator.launchedCount, i ∈ pending) :
    Sound { s with
      coordinator := s.coordinator.requestShutdown call.request call.timeout
      calls := s.calls.set index { call with pending := some pending } } := by
  have hissued := h.issued call (List.mem_of_getElem? hcall)
  have hrequest := requestShutdown_request s.coordinator call.request call.timeout
  have hlaunched := requestShutdown_launchedCount s.coordinator call.request call.timeout
  refine ⟨h.consistent, fun c hmem => ?_, fun c hmem hsome => ?_, fun i r hi hr => ?_,
    fun i r hi hr => h.unlaunched i r (hlaunched ▸ hi) hr,
    fun hinitial => absurd hinitial (requestShutdown_ne_initialized _ _ _),
    h.starter.request ?_ _ hissued⟩
  · rcases List.mem_or_eq_of_mem_set hmem with hmem | rfl
    · exact h.issued c hmem
    · exact hissued
  · rw [hrequest]
    rcases List.mem_or_eq_of_mem_set hmem with hmem | rfl
    · exact (h.known c hmem hsome).trans (le_max_left _ _)
    · exact le_max_right _ _
  · rw [hlaunched] at hi
    -- a call whose request is the strongest tells every launched reactor
    rcases le_total s.coordinator.shutdownRequest call.request with hle | hle
    · refine .inr (.inl ⟨index, _, pending, getElem?_set_self hcall, rfl, hpending i hi, ?_⟩)
      rw [hrequest, max_eq_right hle]
    · rw [hrequest, max_eq_left hle]
      refine (h.covered i r hi hr).imp_right (Or.imp_left ?_)
      rintro ⟨j, c, told, hc, htold, hmem, hstrong⟩
      have hother : index ≠ j := by
        rintro rfl
        obtain rfl := Option.some.inj (hcall.symm.trans hc)
        cases hnew.symm.trans htold
      refine ⟨j, c, told, by rw [List.getElem?_set_ne hother, hc], htold, hmem, ?_⟩
      rw [hrequest, max_eq_left hle]
      exact hstrong
  · intro i q t hrelaying
    rw [locked, hrelaying] at hunlocked
    exact Bool.noConfusion hunlocked

variable {i reactor : ℕ} {rest : List ℕ}

theorem mem_targets (hi : i < s.coordinator.launchedCount) : i ∈ s.targets := by
  unfold targets
  dsimp only
  split
  · rename_i hnone
    exact absurd hi (by rw [hnone.2.2]; exact Nat.not_lt_zero i)
  · exact List.mem_range.mpr hi

section

variable (h : s.Sound)

include h

theorem Sound.deliver (hcall : s.calls[index]? = some call)
    (hpending : call.pending = some (reactor :: rest)) :
    Sound { s.modifyReactor reactor (shutdownReactor call.request call.timeout) with
      calls := s.calls.set index { call with pending := some rest } } := by
  have hmem := List.mem_of_getElem? hcall
  have htold := h.tell reactor call.request call.timeout (h.issued call hmem)
  refine { htold with
    issued := fun c hc => ?_
    known := fun c hc hsome => ?_
    covered := fun i r' hi hr' => ?_ }
  · rcases List.mem_or_eq_of_mem_set hc with hc | rfl
    · exact h.issued c hc
    · exact h.issued call hmem
  · rcases List.mem_or_eq_of_mem_set hc with hc | rfl
    · exact h.known c hc hsome
    · exact h.known call hmem (by rw [hpending]; rfl)
  · rcases htold.covered i r' hi hr' with hobeys | ⟨j, c, told, hc, htold, hi, hstrong⟩ | hstarter
    · exact .inl hobeys
    · by_cases hsame : index = j
      · subst hsame
        obtain rfl := Option.some.inj (hcall.symm.trans hc)
        obtain rfl := Option.some.inj (hpending.symm.trans htold)
        rcases List.mem_cons.mp hi with rfl | hi
        · obtain ⟨r, hr, ⟨_, rfl⟩ | ⟨hother, _⟩⟩ := getElem?_modifyReactor hr'
          · exact .inl ((shutdownReactor_obeys (h.consistent _ r hr) _ _).imp_left hstrong.trans)
          · exact absurd rfl hother
        · exact .inr (.inl ⟨index, _, rest, getElem?_set_self hcall, rfl, hi, hstrong⟩)
      · exact .inr (.inl
          ⟨j, c, told, by rw [List.getElem?_set_ne hsame]; exact hc, htold, hi, hstrong⟩)
    · exact .inr (.inr hstarter)

theorem Sound.advanceCall (index : ℕ) : (s.advanceCall index).Sound := by
  unfold LifecycleWorld.advanceCall
  split
  · exact h
  · rename_i hcall
    split
    · rename_i hnew
      split
      · exact h
      · rename_i hunlocked
        refine h.request hcall hnew (by simpa using hunlocked) fun i hi => mem_targets ?_
        rwa [requestShutdown_launchedCount]
    · exact h
    · rename_i hpending
      exact h.deliver hcall hpending

/-- The starting thread has moved on, and there is nothing that only it would have told. -/
theorem Sound.moveOn {before after : StartProgress} (hs : s.starter = before)
    (htold : ∀ i, StarterTells before i → StarterTells after i)
    (hstarter : StarterSound s.coordinator after) : Sound { s with starter := after } :=
  { h with
    covered := fun i r hi hr =>
      (h.covered i r hi hr).imp_right (Or.imp_right fun htells => htold i (hs ▸ htells))
    starter := hstarter }

theorem Sound.launch (hs : s.starter = .launching index)
    (hr : s.reactors[index]? = some r) (hfresh : r.state = .initialized) :
    Sound { s.modifyReactor index ({ · with state := .starting }) with
      coordinator := { s.coordinator with launchedCount := index + 1 }
      starter := .relaying index s.coordinator.shutdownRequest s.coordinator.drainTimeout } := by
  have hstarter := h.starter
  rw [hs] at hstarter
  obtain ⟨hstarting, hcount⟩ := hstarter
  refine ⟨fun i r' hr' => ?_, h.issued, h.known, fun i r' hi hr' => ?_, fun i r' hi hr' => ?_,
    h.fresh, ⟨hstarting.inProgress, hstarting.state⟩, rfl, rfl⟩
  · obtain ⟨r₁, hr₁, ⟨rfl, rfl⟩ | ⟨_, rfl⟩⟩ := getElem?_modifyReactor hr'
    · obtain rfl := Option.some.inj (hr.symm.trans hr₁)
      have hidle := (h.consistent i r hr).idle
      rw [hfresh] at hidle
      exact ⟨nofun, nofun, nofun, fun hseen => absurd (hidle hseen).1 (by decide)⟩
    · exact h.consistent i r' hr₁
  · by_cases hnew : i = index
    · exact .inr (.inr hnew)
    · obtain ⟨r₁, hr₁, ⟨hsame, _⟩ | ⟨_, rfl⟩⟩ := getElem?_modifyReactor hr'
      · exact absurd hsame hnew
      · have hold : i < s.coordinator.launchedCount := by
          rw [hcount]
          exact lt_of_le_of_ne (Nat.le_of_lt_succ hi) hnew
        refine (h.covered i r' hold hr₁).imp_right (Or.imp_right fun htells => ?_)
        rw [hs] at htells
        exact htells.elim
  · obtain ⟨r₁, hr₁, ⟨rfl, _⟩ | ⟨_, rfl⟩⟩ := getElem?_modifyReactor hr'
    · exact absurd hi (Nat.not_succ_le_self i)
    · exact h.unlaunched i r' (hcount.le.trans (Nat.le_of_succ_le hi)) hr₁

theorem Sound.relay {timeout : ℕ} {request : ShutdownRequest}
    (hs : s.starter = .relaying index request timeout) :
    Sound { (if request = .none then s
        else s.modifyReactor index (shutdownReactor request timeout)) with
      starter := .waiting index } := by
  have hstarter := h.starter
  rw [hs] at hstarter
  obtain ⟨hstarting, hcount, hrequest⟩ := hstarter
  split
  · rename_i hnone
    refine { h with covered := fun i r hi hr => .inl (.inl ?_), starter := ⟨hstarting, hcount⟩ }
    rw [← hrequest, hnone]
    exact ShutdownRequest.none_le _
  · rename_i hsome
    have htold := h.tell index request timeout hsome
    refine { htold with covered := fun i r' hi hr' => ?_, starter := ⟨hstarting, hcount⟩ }
    rcases htold.covered i r' hi hr' with hobeys | hcall | hrelayed
    · exact .inl hobeys
    · exact .inr (.inl hcall)
    · rw [modifyReactor, hs] at hrelayed
      obtain ⟨r, hr, ⟨_, rfl⟩ | ⟨hother, _⟩⟩ := getElem?_modifyReactor hr'
      · exact .inl (hrequest ▸ shutdownReactor_obeys (h.consistent i r hr) request timeout)
      · exact absurd hrelayed hother

theorem Sound.rollback :
    Sound { s with
      coordinator := { s.coordinator with
        shutdownRequest := .immediate
        state := .stopped
        startInProgress := false }
      starter := .delivering (List.range s.coordinator.launchedCount) } :=
  { h with
    known := fun _ _ _ => ShutdownRequest.le_immediate _
    covered := fun _ _ hi _ => .inr (.inr (List.mem_range.mpr hi))
    fresh := nofun
    starter := trivial }

theorem Sound.rollbackDeliver (hs : s.starter = .delivering (reactor :: rest)) :
    Sound { s.modifyReactor reactor (shutdownReactor .immediate 0) with
      starter := .delivering rest } := by
  have htold := h.tell reactor .immediate 0 nofun
  refine { htold with covered := fun i r' hi hr' => ?_, starter := trivial }
  rcases htold.covered i r' hi hr' with hobeys | hcall | hdelivered
  · exact .inl hobeys
  · exact .inr (.inl hcall)
  · rw [modifyReactor, hs] at hdelivered
    rcases List.mem_cons.mp hdelivered with rfl | hmem
    · obtain ⟨r, hr, ⟨_, rfl⟩ | ⟨hother, _⟩⟩ := getElem?_modifyReactor hr'
      · exact .inl ((shutdownReactor_obeys (h.consistent i r hr) _ _).imp_left
          (ShutdownRequest.le_immediate _).trans)
      · exact absurd rfl hother
    · exact .inr (.inr hmem)

theorem Sound.advanceStart (ok : Bool) : (s.advanceStart ok).Sound := by
  have hstarter := h.starter
  unfold LifecycleWorld.advanceStart
  split <;> rename_i hs <;> rw [hs] at hstarter
  · -- a server that was shut down before is not started
    split
    · exact h.moveOn hs (fun _ => id) trivial
    · rename_i hfresh
      rw [not_not] at hfresh
      have hnone := h.fresh hfresh
      exact { h with
        covered := fun i r hi => absurd hi (by rw [hstarter]; exact Nat.not_lt_zero i)
        fresh := nofun
        starter := ⟨⟨rfl, by rw [hnone]; rfl⟩, hstarter⟩ }
  · split
    · exact h.moveOn hs (fun _ => id) hstarter.1
    · rename_i hr
      split
      · exact h.moveOn hs (fun _ => id) hstarter.1
      · rename_i hfresh
        rw [not_or, not_not] at hfresh
        exact h.launch hs hr hfresh.1
  · exact h.relay hs
  · split
    · exact h
    · split
      · exact h
      · split
        · exact h.moveOn hs (fun _ => id) hstarter.1
        · exact h.moveOn hs (fun _ => id)
            ⟨hstarter.1, hstarter.2⟩
  · exact { h with
      covered := fun i r hi hr => (h.covered i r hi hr).imp_right (Or.imp_right fun htells => by
        rw [hs] at htells
        exact htells)
      fresh := fun hinitial => by cases hrequest : s.coordinator.shutdownRequest <;> simp_all
      starter := trivial }
  · exact h.rollback
  · exact h.moveOn hs nofun trivial
  · exact h.rollbackDeliver hs
  · exact h.moveOn hs (fun _ => id) trivial
  · split
    · exact h.moveOn hs (fun _ => id) trivial
    · exact h
  · exact h

theorem Sound.step (event : Event) : (s.step event).Sound := by
  cases event with
  | shutdown | shutdownGracefully => exact h.newCall _ nofun rfl
  | call index => exact h.advanceCall index
  | start ok => exact h.advanceStart ok
  | reactor index event =>
    exact h.modify (fun _ hr => Reactor.next_consistent hr event)
      (fun _ hr => Reactor.next_advances hr event) fun _ hr => next_unlaunched event hr

end

theorem initial_sound (reactorCount : ℕ) : (initial reactorCount).Sound where
  consistent i r hr := by
    obtain rfl := (List.mem_replicate.mp (List.mem_of_getElem? hr)).2
    exact ⟨fun _ => rfl, fun _ => rfl, nofun, nofun⟩
  issued := nofun
  known := nofun
  covered i r hi := absurd hi (Nat.not_lt_zero i)
  unlaunched i r _ hr := by
    obtain rfl := (List.mem_replicate.mp (List.mem_of_getElem? hr)).2
    exact .inl rfl
  fresh _ := rfl
  starter := rfl

/-! ## Steps only go forward -/

theorem advanceCall_forward (h : s.Sound) (index : ℕ) :
    s.coordinator.state ≤ (s.advanceCall index).coordinator.state ∧
      s.Advances (s.advanceCall index) := by
  unfold LifecycleWorld.advanceCall
  split
  · exact ⟨le_rfl, .refl s⟩
  · split
    · split
      · exact ⟨le_rfl, .refl s⟩
      · exact ⟨requestShutdown_state _ _ _, Advances.refl s⟩
    · exact ⟨le_rfl, .refl s⟩
    · exact ⟨le_rfl, modifyReactor_advances fun r hr =>
        shutdownReactor_advances (h.consistent _ r hr) _ _⟩

theorem advanceStart_forward (h : s.Sound) (ok : Bool) :
    s.coordinator.state ≤ (s.advanceStart ok).coordinator.state ∧
      s.Advances (s.advanceStart ok) := by
  have hstarter := h.starter
  unfold LifecycleWorld.advanceStart
  split <;> rename_i hs <;> rw [hs] at hstarter
  · split
    · exact ⟨le_rfl, .refl s⟩
    · rename_i hfresh
      rw [not_not] at hfresh
      exact ⟨by rw [hfresh]; exact Nat.zero_le _, Advances.refl s⟩
  · split
    · exact ⟨le_rfl, .refl s⟩
    · rename_i hr
      split
      · exact ⟨le_rfl, .refl s⟩
      · rename_i hfresh
        rw [not_or, not_not] at hfresh
        refine ⟨le_rfl, modifyReactor_advances fun r' hr' => ?_⟩
        obtain rfl := Option.some.inj (hr.symm.trans hr')
        exact .of_le (by rw [hfresh.1]; exact Nat.zero_le _) (.inl le_rfl)
  · dsimp only
    split
    · exact ⟨le_rfl, .refl s⟩
    · exact ⟨le_rfl, modifyReactor_advances fun r hr =>
        shutdownReactor_advances (h.consistent _ r hr) _ _⟩
  · split
    · exact ⟨le_rfl, .refl s⟩
    · split
      · exact ⟨le_rfl, .refl s⟩
      · split <;> exact ⟨le_rfl, .refl s⟩
  · -- the state that the coordinator settles on is not behind the one it was started in
    refine ⟨?_, Advances.refl s⟩
    rw [hstarter.state]
    cases hrequest : s.coordinator.shutdownRequest with
    | _ =>
      simp only [startingState]
      decide
  · exact ⟨State.le_stopped _, Advances.refl s⟩
  · exact ⟨le_rfl, .refl s⟩
  · exact ⟨le_rfl, modifyReactor_advances fun r hr =>
      shutdownReactor_advances (h.consistent _ r hr) _ _⟩
  · exact ⟨le_rfl, .refl s⟩
  · split <;> exact ⟨le_rfl, .refl s⟩
  · exact ⟨le_rfl, .refl s⟩

theorem step_forward (h : s.Sound) (event : Event) :
    s.coordinator.state ≤ (s.step event).coordinator.state ∧ s.Advances (s.step event) := by
  cases event with
  | shutdown | shutdownGracefully => exact ⟨le_rfl, Advances.refl s⟩
  | call index => exact advanceCall_forward h index
  | start ok => exact advanceStart_forward h ok
  | reactor index event =>
    exact ⟨le_rfl, modifyReactor_advances fun r hr =>
      Reactor.next_advances (h.consistent _ r hr) event⟩

/-! ## Shutting down -/

def Returned (s : LifecycleWorld) : Prop :=
  (s.starter = .idle ∨ s.starter = .returned) ∧ ∀ call ∈ s.calls, call.pending = some []

instance (s : LifecycleWorld) : Decidable s.Returned :=
  inferInstanceAs (Decidable ((_ ∨ _) ∧ ∀ call ∈ s.calls, _))

/-- Every launched reactor has recorded a request as strong as any that was issued, or stops
anyway, and none is left running. -/
def ShutDown (s : LifecycleWorld) : Prop :=
  (∀ (i : ℕ) (r : Reactor), i < s.coordinator.launchedCount → s.reactors[i]? = some r →
    ∀ call ∈ s.calls, call.request ≤ r.shutdownRequest ∨ .stopping ≤ r.state) ∧
  (s.calls ≠ [] → ∀ r ∈ s.reactors, r.state ≠ .running)

theorem Sound.returned (h : s.Sound) (hreturned : s.Returned) (hi : i < s.coordinator.launchedCount)
    (hr : s.reactors[i]? = some r) : r.Obeys s.coordinator.shutdownRequest := by
  rcases h.covered i r hi hr with hobeys | ⟨j, call, pending, hcall, hpending, hmem, _⟩ | hstarter
  · exact hobeys
  · have hdone := hreturned.2 call (List.mem_of_getElem? hcall)
    rw [hpending, Option.some.injEq] at hdone
    rw [hdone] at hmem
    cases hmem
  · rcases hreturned.1 with hs | hs <;> rw [hs] at hstarter <;> exact hstarter.elim

theorem Sound.shutDown (h : s.Sound) (hreturned : s.Returned) : s.ShutDown := by
  have hknown : ∀ call ∈ s.calls, call.request ≤ s.coordinator.shutdownRequest :=
    fun call hmem => h.known call hmem (by rw [hreturned.2 call hmem]; rfl)
  refine ⟨fun i r hi hr call hmem => ?_, fun hcalls r hmem hrunning => ?_⟩
  · exact (h.returned hreturned hi hr).imp_left (hknown call hmem).trans
  · obtain ⟨i, hr⟩ := List.mem_iff_getElem?.mp hmem
    obtain ⟨call, rest, hcall⟩ := List.exists_cons_of_ne_nil hcalls
    have hcall : call ∈ s.calls := by rw [hcall]; exact List.mem_cons_self
    rcases Nat.lt_or_ge i s.coordinator.launchedCount with hi | hi
    · rcases h.returned hreturned hi hr with hle | hstop
      · have hnone := (h.consistent i r hr).running hrunning
        have hissued := (hknown call hcall).trans hle
        rw [hnone] at hissued
        exact h.issued call hcall (le_antisymm hissued (ShutdownRequest.none_le _))
      · rw [hrunning] at hstop
        exact absurd hstop (by decide)
    · rcases h.unlaunched i r hi hr with hstate | hstate <;>
        cases hrunning.symm.trans hstate

end Steps

/-- Over any number of reactors and every interleaving of a start with shutdown calls, states only
move forward, and once all calls have returned the server shuts down as strongly as any of them
asked for. -/
theorem shutdown_reaches_every_reactor (reactorCount : ℕ) (events : List Event) :
    let s := Run.final step (initial reactorCount) events
    (∀ event, s.coordinator.state ≤ (s.step event).coordinator.state ∧
      ∀ (i : ℕ) (r r' : Reactor), s.reactors[i]? = some r → (s.step event).reactors[i]? = some r' →
        r.state ≤ r'.state) ∧
    (s.Returned → s.ShutDown) := by
  intro s
  have hsound : s.Sound :=
    Run.invariant_always (fun _ event h => h.step event) events (initial_sound reactorCount)
  refine ⟨fun event => ?_, hsound.shutDown⟩
  obtain ⟨hcoordinator, hreactors⟩ := step_forward hsound event
  exact ⟨hcoordinator, fun i r r' hr hr' => (hreactors i r r' hr hr').state⟩

/-- A server with one reactor that drains, finds itself idle and then gets an immediate request. -/
def lateShutdown : List Event :=
  [.start true, .start true, .start true, .reactor 0 (.signalStarted false), .start true,
    .start true, .start true, .shutdownGracefully 5, .call 0, .call 0, .reactor 0 .drainIdle,
    .reactor 0 .drainStop, .shutdown, .call 1, .call 1]

/-- The request that a stopping reactor is given is not recorded. -/
theorem late_request_not_recorded :
    let s := Run.final step (initial 1) lateShutdown
    s.Returned ∧ s.coordinator.launchedCount = 1 ∧
      (s.calls.map (·.request) = [.graceful, .immediate]) ∧
      (s.reactors.map fun r => (r.state, r.shutdownRequest)) = [(.stopping, .graceful)] := by
  decide

theorem shutdown_reaches_one_reactor :
    (Run.final step (initial 1) lateShutdown).Returned ∧
      (Run.final step (initial 1) lateShutdown).ShutDown :=
  ⟨by decide, (shutdown_reaches_every_reactor 1 lateShutdown).2 (by decide)⟩

end LifecycleWorld

end GrpcLite.Server
