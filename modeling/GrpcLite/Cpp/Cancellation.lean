import GrpcLite.Cpp.BlockingCall

/-!
# Cancellation of a blocking client call

`ClientContext::TryCancel` against `BlockingCallState::Open`, `Cancel` and `Finish`, for a context
that one call uses.  A step is one critical section of the context's mutex or of one of the call's
two mutexes; `command_mutex_` is held over several steps, so its owner is part of the state.
-/

namespace GrpcLite.Cpp.Cancellation

/-- `ClientContext`.  `target` says that `cancellation_target_` can be locked. -/
structure Context where
  cancelled : Bool := false
  terminal : Bool := false
  target : Bool := false
  initialMetadata : List Entry := []
  trailingMetadata : List Entry := []
  deriving DecidableEq

namespace Context

def registerCancellation (c : Context) : Option Context :=
  if c.cancelled || c.terminal then none else some { c with target := true }

def setInitialMetadata (c : Context) (entries : List Entry) : Context :=
  { c with initialMetadata := entries }

def completeCall (c : Context) (initial trailing : List Entry) : Context :=
  { c with
    initialMetadata := initial, trailingMetadata := trailing, target := false, terminal := true }

end Context

/-- Where the thread is that opens the call and finishes it. -/
inductive Opener where
  | start
  | rejected
  | preparing
  | opening
  | locked
  | accepted
  | failed (status : Status)
  | returned
  | completing (initial trailing : List Entry)
  | destroying
  | finished
  deriving DecidableEq

def Opener.hasReturned : Opener → Bool
  | .returned | .completing _ _ | .destroying | .finished => true
  | _ => false

def Opener.isEarly : Opener → Bool
  | .start | .rejected | .preparing | .opening => true
  | _ => false

/-- Where an invocation of `TryCancel`, or of the call's own `Cancel`, is. -/
inductive Canceller where
  | idle
  | calling
  | locked
  | marked
  | returned
  deriving DecidableEq

inductive Owner where
  | opener
  | canceller (i : ℕ)
  deriving DecidableEq

structure World where
  context : Context := {}
  call : CallState := { hasStream := false }
  commandMutex : Option Owner := none
  opener : Opener := .start
  cancellers : ℕ → Canceller := fun _ => .idle
  /-- The native stream was opened. -/
  opened : Bool := false
  /-- The metadata or the native stream could not be made. -/
  openFailed : Bool := false
  /-- How often `Cancel` was invoked on the native stream. -/
  nativeCancels : ℕ := 0

inductive Callback where
  | headers (entries : List Entry)
  | message (payload : Bytes)
  | writable
  | terminal (status : Status) (trailing : List Entry)

inductive Event where
  | register
  | reject
  | prepare (error : Option ErrorCode)
  | lock
  | openStream (error : Option ErrorCode)
  | store
  | fail
  | finishAwait
  | complete
  | destroy
  | commandFailed (status : Status)
  | callback (callback : Callback)
  | tryCancel (i : ℕ)
  | cancel (i : ℕ)
  | cancelLock (i : ℕ)
  | cancelMark (i : ℕ)
  | cancelStream (i : ℕ)
  | expire

def cancelledBeforeStart : Status := .init .cancelled "call cancelled before start"

namespace World

def setCanceller (w : World) (i : ℕ) (place : Canceller) : World :=
  { w with cancellers := fun j => if j = i then place else w.cancellers j }

def cancelStream (w : World) : World :=
  if w.call.hasStream then { w with nativeCancels := w.nativeCancels + 1 } else w

def onCallback (w : World) : Callback → World
  | .headers entries =>
    { w with call := w.call.onHeaders entries, context := w.context.setInitialMetadata entries }
  | .message payload => { w with call := w.call.onMessage payload }
  | .writable => { w with call := w.call.onWritable }
  | .terminal status trailing => { w with call := w.call.setTerminal status trailing }

def tryCancel (w : World) (i : ℕ) : World :=
  if w.context.terminal then w.setCanceller i .returned
  else { w with context := { w.context with cancelled := true } }.setCanceller i
    (if w.context.target then .calling else .returned)

end World

def step (w : World) : Event → World
  | .register =>
    if w.opener = .start then
      match w.context.registerCancellation with
      | none => { w with opener := .rejected }
      | some context => { w with context := context, opener := .preparing }
    else w
  | .reject =>
    if w.opener = .rejected then
      { w with call := w.call.setTerminal cancelledBeforeStart [], opener := .returned }
    else w
  | .prepare error =>
    if w.opener = .preparing then
      match error with
      | none => { w with opener := .opening }
      | some error => { w with opener := .failed (errorStatus error), openFailed := true }
    else w
  | .lock =>
    if w.opener = .opening ∧ w.commandMutex = none then
      { w with opener := .locked, commandMutex := some .opener }
    else w
  | .openStream error =>
    if w.opener = .locked then
      match error with
      | none => { w with opener := .accepted, opened := true }
      | some error =>
        { w with
          opener := .failed (errorStatus error), openFailed := true, commandMutex := none }
    else w
  | .store =>
    if w.opener = .accepted then
      let w := { w with
        call := { w.call with hasStream := true }, opener := .returned, commandMutex := none }
      if w.call.cancelRequested then w.cancelStream else w
    else w
  | .fail =>
    match w.opener with
    | .failed status => { w with call := w.call.setTerminal status [], opener := .returned }
    | _ => w
  | .finishAwait =>
    if w.opener = .returned ∧ w.call.terminal then
      { w with opener := .completing w.call.initialMetadata w.call.trailingMetadata }
    else w
  | .complete =>
    match w.opener with
    | .completing initial trailing =>
      { w with opener := .destroying, context := w.context.completeCall initial trailing }
    | _ => w
  | .destroy =>
    if w.opener = .destroying ∧ w.commandMutex = none then
      { w with opener := .finished, call := { w.call with hasStream := false } }
    else w
  -- a `Send`, `CloseSend` or `Read` that the stream refuses
  | .commandFailed status =>
    if w.opener.hasReturned then { w with call := w.call.setTerminal status [] } else w
  | .callback callback => if w.opener = .locked ∨ w.opened then w.onCallback callback else w
  | .tryCancel i => if w.cancellers i = .idle then w.tryCancel i else w
  | .cancel i =>
    if w.cancellers i = .idle ∧ w.opener.hasReturned then w.setCanceller i .calling else w
  | .cancelLock i =>
    if w.cancellers i = .calling ∧ w.commandMutex = none then
      { w with commandMutex := some (.canceller i) }.setCanceller i .locked
    else w
  | .cancelMark i =>
    if w.cancellers i = .locked then
      if w.call.terminal then { w with commandMutex := none }.setCanceller i .returned
      else { w with call := w.call.requestCancel }.setCanceller i .marked
    else w
  | .cancelStream i =>
    if w.cancellers i = .marked then
      { w.cancelStream with commandMutex := none }.setCanceller i .returned
    else w
  -- the native stream's callbacks keep the call alive as long as it has the stream
  | .expire =>
    if w.opener.hasReturned ∧ w.call.terminal ∧ w.call.hasStream = false then
      { w with context := { w.context with target := false } }
    else w

namespace World

/-- What is known of the call once `Open` has returned. -/
def Settled (w : World) : Prop :=
  (w.context.target ∨ w.call.terminal) ∧ (w.call.hasStream ∨ w.call.terminal) ∧
    (w.opened ∨ w.openFailed ∨ w.call.terminal ∧ w.call.status = cancelledBeforeStart)

/-- What is known of the call at each place of the opening thread. -/
def At (w : World) : Opener → Prop
  | .start | .rejected => w.call.terminal = false ∧ w.opened = false
  | .preparing | .opening => (w.call.terminal = false ∧ w.opened = false) ∧ w.context.target
  | .locked => w.context.target ∨ w.call.terminal
  | .accepted => (w.context.target ∨ w.call.terminal) ∧ w.opened
  | .failed _ => (w.context.target ∨ w.call.terminal) ∧ w.openFailed
  | .returned => w.Settled
  | .completing _ _ => w.Settled ∧ w.call.terminal
  | .destroying | .finished => w.Settled ∧ w.call.terminal ∧ w.context.terminal

/-- The opening thread still comes past the request. -/
def Pending (w : World) : Opener → Prop
  | .start => w.context.cancelled ∨ w.call.cancelRequested
  | .rejected => True
  | .preparing | .opening | .locked | .accepted | .failed _ => w.call.cancelRequested
  | .returned | .completing _ _ | .destroying | .finished => False

/-- A cancellation that is not lost. -/
def Heard (w : World) (place : Opener) : Prop :=
  w.call.terminal ∨ 0 < w.nativeCancels ∨ w.Pending place

structure SoundAt (w : World) (place : Opener) : Prop where
  holds : w.At place
  completed : w.context.terminal → w.call.terminal
  marked : ∀ i, w.cancellers i = .marked → w.call.cancelRequested
  heard : ∀ i, w.cancellers i = .returned → w.Heard place

def Sound (w : World) : Prop := w.SoundAt w.opener

end World

variable {w : World} {place : Opener}

@[simp] theorem terminal_setTerminal (call : CallState) (status : Status) (trailing : List Entry) :
    (call.setTerminal status trailing).terminal = true := by
  unfold CallState.setTerminal
  split
  · assumption
  · rfl

@[simp] theorem cancelRequested_setTerminal (call : CallState) (status : Status)
    (trailing : List Entry) :
    (call.setTerminal status trailing).cancelRequested = call.cancelRequested := by
  unfold CallState.setTerminal
  split <;> rfl

namespace World

theorem At.settled (h : w.At place) (hreturned : place.hasReturned) : w.Settled := by
  cases place <;> first | exact h | exact h.1 | cases hreturned

theorem At.early (h : w.At place) (hearly : place.isEarly) :
    w.call.terminal = false ∧ w.opened = false := by
  cases place <;> first | exact h | exact h.1 | cases hearly

/-- Without a target the call is not registered yet, or it is over. -/
theorem At.unregistered (h : w.At place) (htarget : w.context.target = false) :
    place = .start ∨ place = .rejected ∨ w.call.terminal := by
  cases place <;> simp_all [At, Settled]

theorem SoundAt.setCanceller (h : w.SoundAt place) (i : ℕ) (canceller : Canceller)
    (hmarked : canceller = .marked → w.call.cancelRequested)
    (hheard : canceller = .returned → w.Heard place) :
    (w.setCanceller i canceller).SoundAt place := by
  refine { h with marked := fun j hj => ?_, heard := fun j hj => ?_ }
  · dsimp only [World.setCanceller] at hj
    split at hj
    · exact hmarked hj
    · exact h.marked j hj
  · dsimp only [World.setCanceller] at hj
    split at hj
    · exact hheard hj
    · exact h.heard j hj

/-- The call ends; whoever cancels it from now on may be ignored. -/
theorem SoundAt.setTerminal (h : w.SoundAt place) (status : Status) (trailing : List Entry)
    (next : Opener) (hnext : At { w with call := w.call.setTerminal status trailing } next) :
    { w with call := w.call.setTerminal status trailing }.SoundAt next :=
  { holds := hnext
    completed := fun _ => terminal_setTerminal ..
    marked := fun i hi => (cancelRequested_setTerminal ..).trans (h.marked i hi)
    heard := fun _ _ => .inl (terminal_setTerminal ..) }

theorem At.setTerminal (h : w.At place) (hlate : place.isEarly = false) (status : Status)
    (trailing : List Entry) : At { w with call := w.call.setTerminal status trailing } place := by
  have hsettled : w.Settled → Settled { w with call := w.call.setTerminal status trailing } := by
    rintro ⟨-, -, hrejection⟩
    refine ⟨.inr (terminal_setTerminal ..), .inr (terminal_setTerminal ..), ?_⟩
    by_cases hover : w.call.terminal
    · rw [CallState.setTerminal, if_pos hover]
      exact hrejection
    · exact hrejection.imp_right fun hlast => .inl (hlast.resolve_right fun hr => hover hr.1)
  cases place <;> simp_all [At, Opener.isEarly]

theorem SoundAt.requested (h : w.SoundAt place) (hrequested : w.call.cancelRequested)
    (hstream : w.call.hasStream = false) : w.Heard place := by
  have hholds := h.holds
  cases place <;> simp_all [Heard, Pending, At, Settled]

theorem Heard.mono {w' : World} (h : w.Heard place) (hterminal : w'.call.terminal = w.call.terminal)
    (hnative : w'.nativeCancels = w.nativeCancels)
    (hcancelled : w.context.cancelled → w'.context.cancelled)
    (hrequested : w.call.cancelRequested → w'.call.cancelRequested) : w'.Heard place := by
  rw [Heard, hterminal, hnative]
  refine Or.imp_right (Or.imp_right fun hpending => ?_) h
  cases place <;> first | exact Or.imp hcancelled hrequested hpending | exact hpending |
    exact hrequested hpending

theorem Sound.at (h : w.Sound) (hplace : w.opener = place) : w.SoundAt place := hplace ▸ h

theorem Sound.ite {p : Prop} [Decidable p] {w' : World} (h : w.Sound) (hw' : p → w'.Sound) :
    (if p then w' else w).Sound := by
  split
  · exact hw' ‹p›
  · exact h

theorem Sound.register (h : w.Sound) : (step w .register).Sound := by
  refine h.ite fun hopener => ?_
  have h := h.at hopener
  unfold Context.registerCancellation
  by_cases hcancelled : w.context.cancelled || w.context.terminal
  · rw [if_pos hcancelled]
    exact { h with heard := fun _ _ => .inr (.inr trivial) }
  · rw [if_neg hcancelled]
    refine { h with holds := ⟨h.holds, rfl⟩, heard := fun i hi => ?_ }
    refine Or.imp_right (Or.imp_right fun hpending => ?_) (h.heard i hi)
    exact hpending.resolve_left fun hcancel => hcancelled (by simp [hcancel])

theorem Sound.store (h : w.Sound) : (step w .store).Sound := by
  refine h.ite fun hopener => ?_
  have h := h.at hopener
  have hsettled : Settled { w with call := { w.call with hasStream := true } } :=
    ⟨h.holds.1, .inl rfl, .inl h.holds.2⟩
  -- the request is seen here, or the canceller finds the stream
  refine iteInduction (fun _ => ?_) fun hrequested => ?_
  · have hcancelled : SoundAt { w with
        call := { w.call with hasStream := true }
        nativeCancels := w.nativeCancels + 1 } .returned :=
      { h with holds := hsettled, heard := fun _ _ => .inr (.inl (Nat.succ_pos _)) }
    exact { hcancelled with }
  · refine { h with holds := hsettled, heard := fun i hi => ?_ }
    exact Or.imp_right (Or.imp_right fun hpending => hrequested hpending) (h.heard i hi)

theorem Sound.callback (h : w.Sound) (callback : Callback) :
    (step w (.callback callback)).Sound := by
  refine h.ite fun hup => ?_
  cases callback with
  | headers | message | writable => exact { h with }
  | terminal status trailing =>
    refine SoundAt.setTerminal h _ _ _
      (h.holds.setTerminal (eq_false_of_ne_true fun hearly => ?_) _ _)
    rcases hup with hlocked | hopened
    · rw [hlocked] at hearly
      exact Bool.false_ne_true hearly
    · exact Bool.false_ne_true ((h.holds.early hearly).2.symm.trans hopened)

theorem Sound.tryCancel (h : w.Sound) (i : ℕ) : (step w (.tryCancel i)).Sound := by
  refine h.ite fun _ => ?_
  unfold World.tryCancel
  by_cases hterminal : w.context.terminal
  · rw [if_pos hterminal]
    exact SoundAt.setCanceller h i _ nofun fun _ => .inl (h.completed hterminal)
  rw [if_neg hterminal]
  have hcancelled : SoundAt { w with context := { w.context with cancelled := true } } w.opener :=
    { h with heard := fun j hj => (h.heard j hj).mono rfl rfl (fun _ => rfl) id }
  cases htarget : w.context.target with
  | true => exact hcancelled.setCanceller i _ nofun nofun
  | false =>
    refine hcancelled.setCanceller i _ nofun fun _ => ?_
    rcases h.holds.unregistered htarget with hstart | hrejected | hover
    · rw [hstart]
      exact .inr (.inr (.inl rfl))
    · rw [hrejected]
      exact .inr (.inr trivial)
    · exact .inl hover

theorem Sound.cancelMark (h : w.Sound) (i : ℕ) : (step w (.cancelMark i)).Sound := by
  refine h.ite fun _ => ?_
  by_cases hterminal : w.call.terminal
  · have hunlocked : SoundAt { w with commandMutex := none } w.opener := { h with }
    rw [if_pos hterminal]
    exact hunlocked.setCanceller i _ nofun fun _ => .inl hterminal
  · have hrequested : SoundAt { w with call := { w.call with cancelRequested := true } } w.opener :=
      { h with
        marked := fun _ _ => rfl
        heard := fun j hj => (h.heard j hj).mono rfl rfl id fun _ => rfl }
    rw [if_neg hterminal, CallState.requestCancel, if_neg hterminal]
    exact hrequested.setCanceller i _ (fun _ => rfl) nofun

theorem Sound.cancelStream (h : w.Sound) (i : ℕ) : (step w (.cancelStream i)).Sound := by
  refine h.ite fun hmarked => ?_
  have hunlocked : SoundAt { w with commandMutex := none } w.opener := { h with }
  unfold World.cancelStream
  cases hstream : w.call.hasStream with
  | true =>
    have hcancelled : SoundAt
        { w with nativeCancels := w.nativeCancels + 1, commandMutex := none } w.opener :=
      { h with heard := fun _ _ => .inr (.inl (Nat.succ_pos _)) }
    exact hcancelled.setCanceller i _ nofun fun _ => .inr (.inl (Nat.succ_pos _))
  -- without a stream the opening thread is yet to come, or the call is over
  | false =>
    exact hunlocked.setCanceller i _ nofun fun _ => hunlocked.requested (h.marked i hmarked) hstream

theorem Sound.expire (h : w.Sound) : (step w .expire).Sound := by
  refine h.ite fun hover => ?_
  obtain ⟨hreturned, hterminal, -⟩ := hover
  obtain ⟨-, hstored, hrejection⟩ := h.holds.settled hreturned
  have hsettled : Settled { w with context := { w.context with target := false } } :=
    ⟨.inr hterminal, hstored, hrejection⟩
  refine { h with holds := ?_ }
  have hholds := h.holds
  generalize w.opener = place at hreturned hholds ⊢
  cases place <;> first | exact hsettled | exact ⟨hsettled, hholds.2⟩ | cases hreturned

theorem Sound.step (h : w.Sound) (event : Event) : (step w event).Sound := by
  cases event with
  | register => exact h.register
  | reject =>
    refine h.ite fun hopener => ?_
    have h := h.at hopener
    have hstatus : (w.call.setTerminal cancelledBeforeStart []).status = cancelledBeforeStart := by
      simp [CallState.setTerminal, h.holds.1]
    have hended := h.setTerminal cancelledBeforeStart [] .returned
      ⟨.inr (by simp), .inr (by simp), .inr (.inr ⟨by simp, hstatus⟩)⟩
    exact { hended with }
  | prepare error =>
    refine h.ite fun hopener => ?_
    have h := h.at hopener
    cases error with
    | none => exact { h with }
    | some => exact { h with holds := ⟨.inl h.holds.2, rfl⟩ }
  | lock =>
    refine h.ite fun hopener => ?_
    have h := h.at hopener.1
    exact { h with holds := .inl h.holds.2 }
  | openStream error =>
    refine h.ite fun hopener => ?_
    have h := h.at hopener
    cases error with
    | none | some => exact { h with holds := ⟨h.holds, rfl⟩ }
  | store => exact h.store
  | fail =>
    dsimp only [Cancellation.step]
    split
    · rename_i status hopener
      have h := h.at hopener
      have hended := h.setTerminal status [] .returned
        ⟨.inr (by simp), .inr (by simp), .inr (.inl h.holds.2)⟩
      exact { hended with }
    · exact h
  | finishAwait =>
    refine h.ite fun hover => ?_
    have h := h.at hover.1
    exact { h with holds := ⟨h.holds, hover.2⟩ }
  | complete =>
    dsimp only [Cancellation.step]
    split
    · rename_i hopener
      have h := h.at hopener
      obtain ⟨⟨-, hstored, hrejection⟩, hterminal⟩ := h.holds
      exact
        { h with
          holds := ⟨⟨.inr hterminal, hstored, hrejection⟩, hterminal, rfl⟩
          completed := fun _ => hterminal }
    · exact h
  | destroy =>
    refine h.ite fun hopener => ?_
    have h := h.at hopener.1
    obtain ⟨⟨htarget, -, hrejection⟩, hterminal, hcompleted⟩ := h.holds
    exact { h with holds := ⟨⟨htarget, .inr hterminal, hrejection⟩, hterminal, hcompleted⟩ }
  | commandFailed status =>
    refine h.ite fun hreturned => SoundAt.setTerminal h _ _ _ (h.holds.setTerminal ?_ _ _)
    generalize w.opener = place at hreturned
    cases place <;> first | rfl | cases hreturned
  | callback callback => exact h.callback callback
  | tryCancel i => exact h.tryCancel i
  | cancel i => exact h.ite fun _ => SoundAt.setCanceller h i _ nofun nofun
  | cancelLock i =>
    refine h.ite fun _ => ?_
    have hlocked : SoundAt { w with commandMutex := some (.canceller i) } w.opener := { h with }
    exact hlocked.setCanceller i _ nofun nofun
  | cancelMark i => exact h.cancelMark i
  | cancelStream i => exact h.cancelStream i
  | expire => exact h.expire

theorem sound_new : Sound {} :=
  { holds := ⟨rfl, rfl⟩, completed := nofun, marked := nofun, heard := nofun }

end World

/-- A cancellation is not lost.  When `Open` and an invocation of `TryCancel` have both returned,
and opening did not fail by itself, either the stream is not opened and the call has ended as
cancelled, or it is opened and the call is terminal or `Cancel` was invoked on the stream.  An
invocation made after `Finish` has returned does nothing but return. -/
theorem cancellation_not_lost (events : List Event) :
    let w := Run.final step {} events
    (∀ i, w.opener.hasReturned → w.cancellers i = .returned → w.openFailed = false →
      (w.opened = false ∧ w.call.terminal ∧ w.call.status = cancelledBeforeStart) ∨
      (w.opened ∧ (w.call.terminal ∨ 0 < w.nativeCancels))) ∧
    (∀ i, w.opener = .finished → w.cancellers i = .idle →
      step w (.tryCancel i) = w.setCanceller i .returned) := by
  have h : World.Sound (Run.final step {} events) :=
    Run.invariant_always (I := World.Sound) (fun _ event h => h.step event) events World.sound_new
  generalize Run.final step {} events = w at h
  refine ⟨fun i hreturned hcanceller hfailed => ?_, fun i hfinished hidle => ?_⟩
  · have hover : w.call.terminal ∨ 0 < w.nativeCancels := by
      have hheard := h.heard i hcanceller
      generalize w.opener = place at hreturned hheard
      cases place <;> simp_all [World.Heard, World.Pending, Opener.hasReturned]
    rcases (h.holds.settled hreturned).2.2 with hopened | hopenFailed | hrejected
    · exact .inr ⟨hopened, hover⟩
    · exact absurd (hfailed.symm.trans hopenFailed) Bool.false_ne_true
    · cases hopened : w.opened with
      | false => exact .inl ⟨rfl, hrejected⟩
      | true => exact .inr ⟨rfl, hover⟩
  · have hterminal : w.context.terminal := (h.at hfinished).holds.2.2
    simp only [step, World.tryCancel, hidle, hterminal, if_true]

-- a cancellation while the native stream is being opened
example : (Run.final step {} [.register, .prepare none, .lock, .tryCancel 0, .openStream none,
    .store, .cancelLock 0, .cancelMark 0, .cancelStream 0]).nativeCancels = 1 := by decide

end GrpcLite.Cpp.Cancellation
