import GrpcLite.Lib.Prog
import Mathlib.Logic.Function.Basic

/-!
# The c-ares adapter

`cares_adapter.zig`: c-ares asks for its sockets to be watched, the adapter polls them in the event
loop and hands readiness back to c-ares.  `Watches` is the part of the adapter that watches sockets,
with the memory of the watches and the completions that the loop has; `Adapter` adds the query.

The loop and c-ares are the environment: an event says which completion the loop delivers and which
callbacks c-ares makes meanwhile.  The use of a destroyed watch, a completion that is set up while
the loop has it, and a watch that is destroyed while it is in use are faults.
-/

namespace GrpcLite.Resolver

open Prog

abbrev Fd := ℕ

inductive Direction where
  | read
  | write
  deriving DecidableEq, Repr

/-- The flags of one direction: `want_read`, `read_active`, `read_cancel_active` or those of
writing. -/
structure Side where
  want : Bool := false
  active : Bool := false
  cancelActive : Bool := false
  deriving DecidableEq, Repr

structure Watch where
  fd : Fd
  read : Side := {}
  write : Side := {}
  callbackActive : Bool := false
  deriving DecidableEq, Repr

def Watch.side (watch : Watch) : Direction → Side
  | .read => watch.read
  | .write => watch.write

def Watch.setSide (watch : Watch) (side : Side) : Direction → Watch
  | .read => { watch with read := side }
  | .write => { watch with write := side }

/-- The completions of a watch; watches are known by their address. -/
inductive Completion where
  | poll (watch : ℕ) (direction : Direction)
  | cancel (watch : ℕ) (direction : Direction)
  deriving DecidableEq, Repr

/-- `loop` is the set of completions that the event loop has.  Addresses are given out in order;
`destroyed` lists those that were given back.  `asked` is history: what the last socket-state
callback that found memory asked for. -/
structure Watches where
  destroying : Bool := false
  watches : Fd → Option ℕ := fun _ => none
  memory : ℕ → Option Watch := fun _ => none
  allocated : ℕ := 0
  destroyed : List ℕ := []
  loop : Completion → Bool := fun _ => false
  asked : Fd → Bool × Bool := fun _ => (false, false)

inductive Fault where
  | freed
  | reinitialised
  | inUse
  | assertion
  deriving DecidableEq, Repr

abbrev WatchM := EStateM Fault Watches

/-! ## Watches -/

def getWatch (id : ℕ) : WatchM Watch := do
  match (← get).memory id with
  | some watch => pure watch
  | none => throw .freed

def setWatch (id : ℕ) (watch : Watch) : WatchM Unit := do
  let _ ← getWatch id
  modify fun w => { w with memory := Function.update w.memory id (some watch) }

/-- `loop.add` and `loop.cancel` with a completion that was just set up. -/
def submit (completion : Completion) : WatchM Unit := do
  ensure (¬(← get).loop completion) .reinitialised
  modify fun w => { w with loop := Function.update w.loop completion true }

def updateSide (id : ℕ) (direction : Direction) : WatchM Unit := do
  let watch ← getWatch id
  let side := watch.side direction
  if side.want && !(← get).destroying && !side.active && !side.cancelActive then
    setWatch id (watch.setSide { side with active := true } direction)
    submit (.poll id direction)
  else if !side.want && side.active && !side.cancelActive then
    setWatch id (watch.setSide { side with cancelActive := true } direction)
    submit (.cancel id direction)

def Side.idle (side : Side) : Bool := !side.want && !side.active && !side.cancelActive

def Watch.idle (watch : Watch) : Bool :=
  watch.read.idle && watch.write.idle && !watch.callbackActive

def hasCompletion (w : Watches) (id : ℕ) : Bool :=
  w.loop (.poll id .read) || w.loop (.poll id .write) ||
    w.loop (.cancel id .read) || w.loop (.cancel id .write)

def destroy (id : ℕ) : WatchM Unit := do
  let watch ← getWatch id
  ensure (watch.idle = true) .inUse
  ensure (hasCompletion (← get) id = false) .inUse
  modify fun w =>
    { w with memory := Function.update w.memory id none, destroyed := w.destroyed ++ [id] }

def maybeRetireWatch (id : ℕ) : WatchM Unit := do
  let watch ← getWatch id
  if watch.idle then
    match (← get).watches watch.fd with
    | none => pure ()
    | some removed =>
      modify fun w => { w with watches := Function.update w.watches watch.fd none }
      ensure (removed = id) .assertion
      destroy id

def updateWatch (id : ℕ) : WatchM Unit := do
  updateSide id .read
  updateSide id .write
  maybeRetireWatch id

def Watch.wanting (watch : Watch) (readable writable : Bool) : Watch :=
  { watch with
    read := { watch.read with want := readable }, write := { watch.write with want := writable } }

def setWants (id : ℕ) (readable writable : Bool) : WatchM Unit := do
  let watch ← getWatch id
  setWatch id (watch.wanting readable writable)
  modify fun w => { w with asked := Function.update w.asked watch.fd (readable, writable) }
  updateWatch id

/-- Which of the two allocations of `onSocketState` fail if they are made. -/
structure Memory where
  mapFails : Bool := false
  watchFails : Bool := false
  deriving DecidableEq, Repr

/-- `onSocketState` up to `failIntegration`; the result says whether the watch is there. -/
def socketState (fd : Fd) (readable writable : Bool) (memory : Memory) : WatchM Bool := do
  let w ← get
  match w.destroying, w.watches fd with
  | true, none => pure true
  | true, some id =>
    setWants id false false
    pure true
  | false, some id =>
    setWants id readable writable
    pure true
  | false, none =>
    if memory.mapFails || memory.watchFails then pure false
    else
      let id := w.allocated
      modify fun w => { w with
        memory := Function.update w.memory id (some { fd := fd })
        watches := Function.update w.watches fd (some id)
        allocated := id + 1 }
      setWants id readable writable
      pure true

/-- The loop takes a completion out and calls its callback; `onReadReady` and `onWriteReady` begin.
The result says whether the direction is wanted. -/
def beginCallback (id : ℕ) (direction : Direction) : WatchM Bool := do
  modify fun w => { w with loop := Function.update w.loop (.poll id direction) false }
  let watch ← getWatch id
  let side := watch.side direction
  setWatch id { watch.setSide { side with active := false } direction with callbackActive := true }
  pure side.want

def endCallback (id : ℕ) : WatchM Unit := do
  let watch ← getWatch id
  setWatch id { watch with callbackActive := false }
  updateWatch id

def onCancelled (id : ℕ) (direction : Direction) : WatchM Unit := do
  modify fun w => { w with loop := Function.update w.loop (.cancel id direction) false }
  let watch ← getWatch id
  setWatch id (watch.setSide { watch.side direction with cancelActive := false } direction)
  updateWatch id

def Watches.values (w : Watches) : List ℕ :=
  (List.range w.allocated).filter fun id =>
    (w.memory id).any fun watch => w.watches watch.fd = some id

def destroyAll : List ℕ → WatchM Unit
  | [] => pure ()
  | id :: rest => do
    let watch ← getWatch id
    ensure (watch.read.want = false ∧ watch.write.want = false ∧ watch.callbackActive = false)
      .inUse
    ensure (hasCompletion (← get) id = false) .inUse
    modify fun w =>
      { w with memory := Function.update w.memory id none, destroyed := w.destroyed ++ [id] }
    destroyAll rest

/-- The loop is deinitialized, which drops its completions; then `deinitAfterLoop` runs. -/
def deinitAfterLoop : WatchM Unit := do
  modify fun w => { w with loop := fun _ => false }
  ensure ((← get).destroying = true) .assertion
  destroyAll (← get).values
  modify fun w => { w with watches := fun _ => none }

/-! ## The query -/

structure IpAddress where
  bytes : Vector UInt8 4
  port : ℕ
  deriving DecidableEq

inductive ResolveResult where
  | addresses (addresses : List IpAddress)
  | failed
  | cancelled
  deriving DecidableEq

/-- A node of a c-ares result: an address of `AF_INET` or of another family. -/
inductive Node where
  | inet (bytes : Vector UInt8 4)
  | other
  deriving DecidableEq

inductive Status where
  | success
  | cancelled
  | destruction
  | error
  deriving DecidableEq, Repr

/-- A query as it started: its context and port, the flags it found, and, as history, whether an
allocation has failed since. -/
structure Query where
  context : ℕ
  port : ℕ
  integrationFailed : Bool
  forceFailure : Bool
  failure : Bool := false
  deriving DecidableEq, Repr

/-- What c-ares reported about a query and what the callback got; `forced` is history: the timer
cancelled the query after a failed allocation. -/
structure Completed where
  query : Query
  forced : Bool
  status : Status
  nodes : Option (List Node)
  answer : ResolveResult
  deriving DecidableEq

/-- `callback` is the query whose callback is set.  `completed` is history. -/
structure Adapter extends Watches where
  channel : Bool := true
  timerArmed : Bool := false
  queryActive : Bool := false
  integrationFailed : Bool := false
  forceFailure : Bool := false
  port : ℕ := 0
  callback : Option Query := none
  completed : List Completed := []

abbrev AdapterM := EStateM Fault Adapter

def onWatches {α : Type} (x : WatchM α) : AdapterM α := fun a =>
  match x a.toWatches with
  | .ok r w => .ok r { a with toWatches := w }
  | .error e w => .error e { a with toWatches := w }

def scheduleTimer : AdapterM Unit := modify fun a => { a with timerArmed := true }

def stopTimer : AdapterM Unit := pure ()

/-- `pending` is whether `ares_timeout` gives a time. -/
def rescheduleTimeout (pending : Bool) : AdapterM Unit := do
  let a ← get
  if a.destroying then pure ()
  else if a.integrationFailed then scheduleTimer
  else if pending then scheduleTimer
  else stopTimer

def failIntegration : AdapterM Unit := do
  modify fun a => { a with
    integrationFailed := true
    callback := a.callback.map fun query => { query with failure := true } }
  rescheduleTimeout false

def onSocketState (fd : Fd) (readable writable : Bool) (memory : Memory) : AdapterM Unit := do
  let watched ← onWatches (socketState fd readable writable memory)
  if !watched then failIntegration

def inetAddresses (port : ℕ) (nodes : List Node) : List IpAddress :=
  nodes.filterMap fun
    | .inet bytes => some ⟨bytes, port⟩
    | .other => none

/-- What `onResolved` makes of a c-ares result. -/
def outcome (status : Status) (nodes : Option (List Node)) (port : ℕ) (oom : Bool) :
    ResolveResult :=
  match status, nodes with
  | .cancelled, _ | .destruction, _ => .cancelled
  | .error, _ | .success, none => .failed
  | .success, some nodes =>
    if oom then .failed
    else match inetAddresses port nodes with
      | [] => .failed
      | address :: rest => .addresses (address :: rest)

/-- Whether `onResolved` asks for memory. -/
def allocates : Status → Option (List Node) → Bool
  | .success, some _ => true
  | _, _ => false

def onResolved (forced : Bool) (status : Status) (nodes : Option (List Node)) (oom : Bool) :
    AdapterM Unit := do
  modify fun a => { a with queryActive := false }
  match (← get).callback with
  | none => pure ()
  | some query =>
    modify fun a => { a with callback := none }
    if (← get).forceFailure then
      modify fun a => { a with
        forceFailure := false
        completed := a.completed ++ [⟨query, forced, status, nodes, .failed⟩] }
    else
      let query := { query with failure := query.failure || (oom && allocates status nodes) }
      modify fun a => { a with
        completed := a.completed ++ [⟨query, forced, status, nodes,
          outcome status nodes a.port oom⟩] }

inductive Callback where
  | socketState (fd : Fd) (readable writable : Bool) (memory : Memory)
  | resolved (status : Status) (nodes : Option (List Node)) (oom : Bool)

/-- c-ares reports the result of a query once. -/
def callBack : Callback → AdapterM Unit
  | .socketState fd readable writable memory => onSocketState fd readable writable memory
  | .resolved status nodes oom => do
    if (← get).queryActive then onResolved false status nodes oom

def callBacks : List Callback → AdapterM Unit
  | [] => pure ()
  | callback :: rest => do
    callBack callback
    callBacks rest

/-- c-ares ends the query without a result. -/
def endQuery (forced : Bool) (status : Status) : AdapterM Unit := do
  if (← get).queryActive then onResolved forced status none false

def aresCancel (forced : Bool) (callbacks : List Callback) : AdapterM Unit := do
  endQuery forced .cancelled
  callBacks callbacks

def closeAll : List ℕ → AdapterM Unit
  | [] => pure ()
  | id :: rest => do
    match (← get).memory id with
    | none => pure ()
    | some watch => onSocketState watch.fd false false {}
    closeAll rest

/-- `ares_destroy` ends the query and reports every socket that is watched as closed. -/
def aresDestroy (callbacks : List Callback) : AdapterM Unit := do
  endQuery false .destruction
  callBacks callbacks
  closeAll (← get).values

inductive ResolveError where
  | resolverClosed
  | resolveInProgress
  deriving DecidableEq, Repr

def resolve (port context : ℕ) (callbacks : List Callback) (pending : Bool) :
    AdapterM (Except ResolveError Unit) := do
  let a ← get
  if a.destroying || !a.channel then pure (.error .resolverClosed)
  else if a.queryActive then pure (.error .resolveInProgress)
  else
    set { a with
      port := port
      callback := some ⟨context, port, a.integrationFailed, a.forceFailure, false⟩
      queryActive := true }
    callBacks callbacks
    rescheduleTimeout pending
    pure (.ok ())

def cancel (callbacks : List Callback) (pending : Bool) : AdapterM Unit := do
  if (← get).queryActive then
    aresCancel false callbacks
    rescheduleTimeout pending

def shutdown (cancelling destroying : List Callback) : AdapterM Unit := do
  if !(← get).destroying then
    modify fun a => { a with destroying := true }
    if (← get).queryActive then aresCancel false cancelling
    aresDestroy destroying
    modify fun a => { a with channel := false }
    stopTimer

def processFd (callbacks : List Callback) (pending : Bool) : AdapterM Unit := do
  if !(← get).destroying then
    callBacks callbacks
    rescheduleTimeout pending

def onReady (id : ℕ) (direction : Direction) (polled : Bool) (callbacks : List Callback)
    (pending : Bool) : AdapterM Unit := do
  let wanted ← onWatches (beginCallback id direction)
  if polled && wanted then processFd callbacks pending
  onWatches (endCallback id)

def onTimer (fired : Bool) (callbacks : List Callback) (pending : Bool) : AdapterM Unit := do
  modify fun a => { a with timerArmed := false }
  let a ← get
  if fired && !a.destroying then
    if a.integrationFailed then
      modify fun a => { a with integrationFailed := false, forceFailure := true }
      if a.queryActive then aresCancel true callbacks
    else
      callBacks callbacks
      rescheduleTimeout pending

/-- The loop delivers completions that it has, and the timer while it is armed. -/
inductive Event where
  | resolve (port context : ℕ) (callbacks : List Callback) (pending : Bool)
  | cancel (callbacks : List Callback) (pending : Bool)
  | shutdown (cancelling destroying : List Callback)
  | ready (id : ℕ) (direction : Direction) (polled : Bool) (callbacks : List Callback)
      (pending : Bool)
  | cancelled (id : ℕ) (direction : Direction)
  | timer (fired : Bool) (callbacks : List Callback) (pending : Bool)

def handle : Event → AdapterM Unit
  | .resolve port context callbacks pending => do
    let _ ← resolve port context callbacks pending
  | .cancel callbacks pending => cancel callbacks pending
  | .shutdown cancelling destroying => shutdown cancelling destroying
  | .ready id direction polled callbacks pending => do
    if (← get).loop (.poll id direction) then onReady id direction polled callbacks pending
  | .cancelled id direction => do
    if (← get).loop (.cancel id direction) then onWatches (onCancelled id direction)
  | .timer fired callbacks pending => do
    if (← get).timerArmed then onTimer fired callbacks pending

def handleAll : List Event → AdapterM Unit
  | [] => pure ()
  | event :: rest => do
    handle event
    handleAll rest

end GrpcLite.Resolver
