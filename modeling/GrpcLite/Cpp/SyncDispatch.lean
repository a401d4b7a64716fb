import GrpcLite.Cpp.CApi
import GrpcLite.Lib.Run

/-!
# Synchronous dispatch

A call that one of the `Dispatch` functions of `sync_service.hpp` hands to an executor: the gate
that admits its handler, the call's `TypedCallState` and the threads that meet at both.  A step is
one access to the gate or one critical section of the call's mutex.  The executor may run the task
any number of times, as soon as it was submitted.
-/

namespace GrpcLite.Cpp.Sync

inductive Gate where
  | queued
  | starting
  | running
  | stopped
  deriving DecidableEq

/-- `TypedCallState`.  `onCancel` and `onTerminal` say that a callback is installed; `accepted` are
the statuses of the finishes that the transport has accepted. -/
structure CallState where
  cancelled : Bool := false
  terminal : Bool := false
  onCancel : Bool := false
  onTerminal : Bool := false
  finishSubmitted : Bool := false
  initialMetadataSent : Bool := false
  accepted : List Status := []

/-- An operation on the call, with the transport's answers to it. -/
inductive Op where
  | sendInitialMetadata (answer : Option ErrorCode)
  | send (metadata answer : Option ErrorCode)
  | finish (status : Status) (metadata answer : Option ErrorCode)

namespace CallState

def ensureInitialMetadata (s : CallState) (answer : Option ErrorCode) : CallState × Bool :=
  if s.initialMetadataSent then (s, true)
  else match answer with
    | none => ({ s with initialMetadataSent := true }, true)
    | some _ => (s, false)

def finish (s : CallState) (status : Status) (answer : Option ErrorCode) : CallState :=
  match answer with
  | none => { s with finishSubmitted := true, accepted := s.accepted ++ [status] }
  | some _ => s

/-- Every operation is refused on a call that is terminal or finished. -/
def perform (s : CallState) (op : Op) : CallState :=
  if s.terminal || s.finishSubmitted then s
  else match op with
    | .sendInitialMetadata answer => (s.ensureInitialMetadata answer).1
    | .send metadata _ => (s.ensureInitialMetadata metadata).1
    | .finish status metadata answer =>
      match s.ensureInitialMetadata metadata with
      | (s, true) => s.finish status answer
      | (s, false) => s

end CallState

/-- Who calls `Stop`: `SetOnCancel` or `SetOnTerminal` when they come too late, a notification, or
the rejection of the task. -/
inductive Source where
  | setOnCancel
  | setOnTerminal
  | cancel (n : ℕ)
  | terminal (n : ℕ)
  | rejection
  deriving DecidableEq

/-- Where a call of `Stop` is.  `processed` says whether it found the handler started. -/
inductive Stopper where
  | idle
  | loading
  | looping (seen : Gate)
  | processed (started : Bool)
  deriving DecidableEq

inductive Runner where
  | idle
  | begun
  | committed
  | invoked
  | refused
  deriving DecidableEq

inductive Dispatcher where
  | start
  | admitted
  | cancelSet
  | terminalSet
  | submitting
  | returned
  deriving DecidableEq

structure World where
  dispatcher : Dispatcher := .start
  gate : Gate := .queued
  call : CallState := {}
  stoppers : Source → Stopper := fun _ => .idle
  runners : ℕ → Runner := fun _ => .idle
  submitted : Bool := false
  /-- How often the handler was invoked. -/
  invocations : ℕ := 0

inductive Event where
  | admission (ok : Bool)
  | setOnCancel
  | setOnTerminal
  | submit
  | submitReturned (ok : Bool)
  | onCancel (n : ℕ)
  | onTerminal (n : ℕ)
  | load (source : Source)
  | exchange (source : Source) (spurious : Bool)
  | beginStart (i : ℕ)
  | commitStart (i : ℕ)
  | invoke (i : ℕ)
  | perform (op : Op)

namespace World

def setStopper (w : World) (source : Source) (place : Stopper) : World :=
  { w with stoppers := fun other => if other = source then place else w.stoppers other }

def setRunner (w : World) (i : ℕ) (place : Runner) : World :=
  { w with runners := fun j => if j = i then place else w.runners j }

def callStop (w : World) (source : Source) (installed : Bool) : World :=
  if installed then w.setStopper source .loading else w

def loopStop (w : World) (source : Source) (seen : Gate) : World :=
  w.setStopper source <| match seen with
    | .queued | .starting => .looping seen
    | .running => .processed true
    | .stopped => .processed false

end World

def step (w : World) : Event → World
  | .admission ok =>
    if w.dispatcher = .start then { w with dispatcher := if ok then .admitted else .returned }
    else w
  | .setOnCancel =>
    if w.dispatcher = .admitted then
      { w with
        dispatcher := .cancelSet
        call := { w.call with
          onCancel := w.call.onCancel || (!w.call.cancelled && !w.call.terminal) } }.callStop
        .setOnCancel w.call.cancelled
    else w
  | .setOnTerminal =>
    if w.dispatcher = .cancelSet then
      { w with
        dispatcher := .terminalSet
        call := { w.call with onTerminal := w.call.onTerminal || !w.call.terminal } }.callStop
        .setOnTerminal w.call.terminal
    else w
  | .submit =>
    if w.dispatcher = .terminalSet then { w with dispatcher := .submitting, submitted := true }
    else w
  | .submitReturned ok =>
    if w.dispatcher = .submitting then
      { w with dispatcher := .returned }.callStop .rejection !ok
    else w
  | .onCancel n =>
    if w.stoppers (.cancel n) = .idle then
      { w with call := { w.call with cancelled := true } }.callStop (.cancel n) w.call.onCancel
    else w
  | .onTerminal n =>
    if w.stoppers (.terminal n) = .idle then
      { w with
        call := { w.call with terminal := true, onCancel := false, onTerminal := false } }.callStop
        (.terminal n) w.call.onTerminal
    else w
  | .load source => if w.stoppers source = .loading then w.loopStop source w.gate else w
  -- a weak exchange may fail without reason
  | .exchange source spurious =>
    match w.stoppers source with
    | .looping seen =>
      if w.gate = seen ∧ !spurious then
        { w with gate := .stopped }.setStopper source (.processed false)
      else w.loopStop source w.gate
    | _ => w
  | .beginStart i =>
    if w.runners i = .idle ∧ w.submitted then
      if w.gate = .queued then { w with gate := .starting }.setRunner i .begun
      else w.setRunner i .refused
    else w
  | .commitStart i =>
    if w.runners i = .begun then
      if w.gate = .starting then { w with gate := .running }.setRunner i .committed
      else w.setRunner i .refused
    else w
  | .invoke i =>
    if w.runners i = .committed then
      { w with invocations := w.invocations + 1 }.setRunner i .invoked
    else w
  -- the handler, the end of the task, the rejection and the request stream all come through here
  | .perform op => { w with call := w.call.perform op }

def Runner.isAdmitted : Runner → Bool
  | .begun | .committed | .invoked => true
  | _ => false

structure World.Sound (w : World) : Prop where
  finishes : w.call.accepted.length = w.call.finishSubmitted.toNat
  unique : ∀ i j, (w.runners i).isAdmitted → (w.runners j).isAdmitted → i = j
  queued : w.gate = .queued → ∀ i, (w.runners i).isAdmitted = false
  started : ∀ i, w.runners i = .committed ∨ w.runners i = .invoked → w.gate = .running
  invoked : w.invocations = 0 ∨ w.invocations = 1 ∧ ∃ i, w.runners i = .invoked
  looping : ∀ source seen, w.stoppers source = .looping seen → seen = .queued ∨ seen = .starting
  processed : ∀ source, w.stoppers source = .processed false → w.gate = .stopped

variable {w : World}

theorem CallState.ensureInitialMetadata_accepted (s : CallState) (answer : Option ErrorCode) :
    (s.ensureInitialMetadata answer).1.accepted = s.accepted ∧
      (s.ensureInitialMetadata answer).1.finishSubmitted = s.finishSubmitted := by
  unfold ensureInitialMetadata
  split
  · exact ⟨rfl, rfl⟩
  · cases answer <;> exact ⟨rfl, rfl⟩

theorem CallState.perform_accepted {s : CallState} (op : Op)
    (h : s.accepted.length = s.finishSubmitted.toNat) :
    (s.perform op).accepted.length = (s.perform op).finishSubmitted.toNat := by
  have hensured (answer : Option ErrorCode) := s.ensureInitialMetadata_accepted answer
  unfold perform
  split
  · exact h
  rename_i hopen
  cases op with
  | sendInitialMetadata answer => rwa [(hensured answer).1, (hensured answer).2]
  | send metadata => rwa [(hensured metadata).1, (hensured metadata).2]
  | finish status metadata answer =>
    have hmetadata := hensured metadata
    have hnone : s.accepted = [] := by simp_all
    dsimp only
    generalize s.ensureInitialMetadata metadata = made at hmetadata ⊢
    obtain ⟨s', _ | _⟩ := made
    · rwa [← hmetadata.1, ← hmetadata.2] at h
    · cases answer with
      | none => simpa [CallState.finish] using hmetadata.1.trans hnone
      | some => rwa [← hmetadata.1, ← hmetadata.2] at h

namespace World.Sound

/-- A `Stop` loops on a gate that is not decided, and ends without a start when it is stopped. -/
theorem setStopper (h : w.Sound) (source : Source) (place : Stopper)
    (hlooping : ∀ seen, place = .looping seen → seen = .queued ∨ seen = .starting)
    (hprocessed : place = .processed false → w.gate = .stopped) :
    (w.setStopper source place).Sound := by
  refine { h with looping := fun other seen hother => ?_, processed := fun other hother => ?_ }
  · dsimp only [World.setStopper] at hother
    split at hother
    · exact hlooping seen hother
    · exact h.looping other seen hother
  · dsimp only [World.setStopper] at hother
    split at hother
    · exact hprocessed hother
    · exact h.processed other hother

theorem loopStop (h : w.Sound) (source : Source) : (w.loopStop source w.gate).Sound := by
  unfold World.loopStop
  cases hgate : w.gate with
  | queued => exact h.setStopper source _ (fun _ hseen => .inl (by cases hseen; rfl)) nofun
  | starting => exact h.setStopper source _ (fun _ hseen => .inr (by cases hseen; rfl)) nofun
  | running => exact h.setStopper source _ nofun nofun
  | stopped => exact h.setStopper source _ nofun fun _ => hgate

theorem callStop (source : Source) (installed : Bool) (h : w.Sound) :
    (w.callStop source installed).Sound := by
  unfold World.callStop
  split
  · exact h.setStopper source _ nofun nofun
  · exact h

theorem setGate (h : w.Sound) (gate : Gate) (hqueued : gate ≠ .queued)
    (hstarted : ∀ i, w.runners i = .committed ∨ w.runners i = .invoked → gate = .running)
    (hstopped : w.gate ≠ .stopped ∨ gate = .stopped) : { w with gate := gate }.Sound :=
  { h with
    queued := fun hgate => absurd hgate hqueued
    started := hstarted
    processed := fun source hsource =>
      hstopped.resolve_left fun hgate => hgate (h.processed source hsource) }

/-- A runner that is admitted is the only one. -/
theorem setRunner (h : w.Sound) (i : ℕ) (place : Runner) (hinvoked : w.runners i ≠ .invoked)
    (hadmitted : place.isAdmitted → w.gate ≠ .queued ∧ ∀ j, (w.runners j).isAdmitted → j = i)
    (hstarted : place = .committed ∨ place = .invoked → w.gate = .running) :
    (w.setRunner i place).Sound := by
  have hcases (j : ℕ) : j = i ∧ (w.setRunner i place).runners j = place ∨
      (w.setRunner i place).runners j = w.runners j := by
    by_cases hj : j = i
    · exact .inl ⟨hj, if_pos hj⟩
    · exact .inr (if_neg hj)
  refine
    { h with
      unique := fun j k hj hk => ?_
      queued := fun hgate j => ?_
      started := fun j hj => ?_
      invoked := h.invoked.imp_right fun ⟨hone, j, hj⟩ => ⟨hone, j, ?_⟩ }
  · rcases hcases j with ⟨rfl, hj'⟩ | hj' <;> rcases hcases k with ⟨rfl, hk'⟩ | hk' <;>
      rw [hj'] at hj <;> rw [hk'] at hk
    · exact ((hadmitted hj).2 k hk).symm
    · exact (hadmitted hk).2 j hj
    · exact h.unique j k hj hk
  · rcases hcases j with ⟨-, hj⟩ | hj <;> rw [hj]
    · exact eq_false_of_ne_true fun hplace => (hadmitted hplace).1 hgate
    · exact h.queued hgate j
  · rcases hcases j with ⟨-, hj'⟩ | hj' <;> rw [hj'] at hj
    · exact hstarted hj
    · exact h.started j hj
  · exact (if_neg fun hji : j = i => hinvoked (hji ▸ hj)).trans hj

theorem ite {p : Prop} [Decidable p] {w' : World} (h : w.Sound) (hw' : p → w'.Sound) :
    (if p then w' else w).Sound := by
  split
  · exact hw' ‹p›
  · exact h

theorem exchange (h : w.Sound) (source : Source) (spurious : Bool) :
    (step w (.exchange source spurious)).Sound := by
  dsimp only [Sync.step]
  split
  · rename_i seen hlooping
    split
    · rename_i hgate
      have hseen := h.looping source seen hlooping
      rw [← hgate.1] at hseen
      have hstopped := h.setGate .stopped (by decide)
        (fun i hi => by simp [h.started i hi] at hseen) (.inr rfl)
      exact hstopped.setStopper source _ nofun fun _ => rfl
    · exact h.loopStop source
  · exact h

theorem beginStart (h : w.Sound) (i : ℕ) : (step w (.beginStart i)).Sound := by
  refine h.ite fun ⟨hidle, _⟩ => ?_
  have hinvoked : w.runners i ≠ .invoked := by simp [hidle]
  split
  · rename_i hgate
    have hnone (j : ℕ) := h.queued hgate j
    have hstarting := h.setGate .starting (by decide)
      (fun j hj => by rcases hj with hj | hj <;> simpa [hj, Runner.isAdmitted] using hnone j)
      (.inl (by simp [hgate]))
    refine hstarting.setRunner i _ hinvoked (fun _ => ⟨Gate.noConfusion, fun j hj => ?_⟩) nofun
    exact absurd ((hnone j).symm.trans hj) Bool.false_ne_true
  · exact h.setRunner i _ hinvoked nofun nofun

theorem commitStart (h : w.Sound) (i : ℕ) : (step w (.commitStart i)).Sound := by
  refine h.ite fun hbegun => ?_
  have hinvoked : w.runners i ≠ .invoked := by simp [hbegun]
  split
  · rename_i hgate
    have hrunning := h.setGate .running (by decide) (fun _ _ => rfl) (.inl (by simp [hgate]))
    exact hrunning.setRunner i _ hinvoked (fun _ => ⟨Gate.noConfusion, fun j hj =>
      h.unique j i hj (by rw [hbegun]; rfl)⟩) fun _ => rfl
  · exact h.setRunner i _ hinvoked nofun nofun

theorem invoke (h : w.Sound) (i : ℕ) : (step w (.invoke i)).Sound := by
  refine h.ite fun hcommitted => ?_
  have hadmitted : (w.runners i).isAdmitted := by rw [hcommitted]; rfl
  have hrunning := h.started i (.inl hcommitted)
  -- an earlier invocation would be of another admitted runner
  have hzero : w.invocations = 0 := by
    rcases h.invoked with hzero | ⟨-, j, hj⟩
    · exact hzero
    · have hji := h.unique j i (by rw [hj]; rfl) hadmitted
      rw [hji, hcommitted] at hj
      cases hj
  have hset := h.setRunner i .invoked (by simp [hcommitted])
    (fun _ => ⟨by simp [hrunning], fun j hj => h.unique j i hj hadmitted⟩) fun _ => hrunning
  exact { hset with invoked := .inr ⟨congrArg (· + 1) hzero, i, if_pos rfl⟩ }

theorem step (h : w.Sound) (event : Event) : (step w event).Sound := by
  cases event with
  | admission | submit => exact h.ite fun _ => { h with }
  | load source => exact h.ite fun _ => h.loopStop source
  | exchange source spurious => exact h.exchange source spurious
  | beginStart i => exact h.beginStart i
  | commitStart i => exact h.commitStart i
  | invoke i => exact h.invoke i
  | perform op => exact { h with finishes := w.call.perform_accepted op h.finishes }
  -- what is left begins a `Stop`
  | _ => exact h.ite fun _ => callStop _ _ { h with }

end World.Sound

end GrpcLite.Cpp.Sync
