import GrpcLite.Cpp.CApi
import GrpcLite.Lib.Run

/-!
# The blocking client call

`BlockingCallState` of `blocking_call.h` with the `ClientWriter` and `ClientReaderWriter`
objects of `sync_stream.h`, as one application thread that runs their methods one after the
other.  A thread step is one critical section of the call's mutexes; between two of them any
callback of the transport may run.
-/

namespace GrpcLite.Cpp

def errorStatusCode : ErrorCode → Code
  | .ok => .ok
  | .invalidArgument => .invalidArgument
  | .invalidState => .failedPrecondition
  | .outOfMemory => .resourceExhausted
  | .unsupported => .unimplemented
  | .unavailable => .unavailable
  | .closed => .unavailable
  | .outOfRange => .outOfRange
  | .wouldBlock => .resourceExhausted
  | .internal => .internal

def errorStatus (error : ErrorCode) : Status :=
  if error = .ok then ⟨.ok, []⟩ else ⟨errorStatusCode error, errorString error⟩

/-- The status `RunCommand` makes of an error that is neither closed nor would-block. -/
def commandStatus (error : ErrorCode) : Status :=
  if error = .outOfRange then ⟨.resourceExhausted, errorString error⟩ else errorStatus error

theorem commandStatus_not_isOk {error : ErrorCode} (h : error ≠ .ok) :
    (commandStatus error).isOk = false := by
  cases error <;> first | exact absurd rfl h | decide

/-- The members that the call's methods and the transport's callbacks share.  `message` holds a
payload exactly when `has_message_` is set. -/
structure CallState where
  hasStream : Bool := true
  message : Option Bytes := none
  status : Status := ⟨.ok, []⟩
  initialMetadata : List Entry := []
  trailingMetadata : List Entry := []
  terminal : Bool := false
  writableGeneration : ℕ := 0
  cancelRequested : Bool := false
  deriving DecidableEq, Repr

namespace CallState

def setTerminal (call : CallState) (status : Status) (trailing : List Entry) : CallState :=
  if call.terminal then call
  else { call with status := status, trailingMetadata := trailing, terminal := true }

def onHeaders (call : CallState) (entries : List Entry) : CallState :=
  { call with initialMetadata := entries }

/-- The callback stores the message; the transport is told to pause in every case. -/
def onMessage (call : CallState) (payload : Bytes) : CallState :=
  { call with message := some payload }

def onWritable (call : CallState) : CallState :=
  { call with writableGeneration := call.writableGeneration + 1 }

def requestCancel (call : CallState) : CallState :=
  if call.terminal then call else { call with cancelRequested := true }

end CallState

/-- A command that `RunCommand` retries, with what its caller does next: `send` is a `Write`,
`closeSend` a `WritesDone` or, when `finishing`, the half-close inside `Finish`. -/
inductive Command where
  | send (payload : Bytes)
  | closeSend (finishing : Bool)
  deriving DecidableEq, Repr

/-- The caller of `BlockingCallState::Read`: a `Read`, or one of the two reads of
`ClientWriter::Finish`. -/
inductive ReadGoal where
  | read
  | response
  | extra
  deriving DecidableEq, Repr

inductive Pc where
  | idle
  | runHead (command : Command)
  | runCall (command : Command) (generation : ℕ)
  | runFailed (command : Command) (error : ErrorCode)
  | runAwaitTerminal (command : Command)
  | runAwaitWritable (command : Command) (generation : ℕ)
  | readAwait (goal : ReadGoal)
  | readResume (goal : ReadGoal)
  | cancelIdle
  | cancelFinish
  | finishAwait
  | finishDestroy
  deriving DecidableEq, Repr

inductive WriterKind where
  | clientWriter
  | clientReaderWriter
  deriving DecidableEq, Repr

/-- A completed `Send`: the frames the transport accepted for it, the status it returned and
what the `Write` around it returned. -/
structure SendRecord where
  payload : Bytes
  accepted : List Bytes
  status : Status
  written : Bool
  deriving DecidableEq, Repr

/-- The application thread with its writer object.  `accepted` lists the frames accepted for the
`Send` in progress and `sends` the completed ones. -/
structure Thread where
  kind : WriterKind := .clientReaderWriter
  pc : Pc := .idle
  writesDone : Bool := false
  finished : Bool := false
  readExhausted : Bool := false
  responseMissing : Bool := false
  writeStatus : Status := ⟨.ok, []⟩
  parseStatus : Status := ⟨.ok, []⟩
  finalStatus : Status := ⟨.ok, []⟩
  accepted : List Bytes := []
  sends : List SendRecord := []
  deriving DecidableEq, Repr

/-- A method call of the application; a `write` without payload is one whose message does not
serialize. -/
inductive Op where
  | write (payload : Option Bytes)
  | writesDone
  | read
  | finish
  deriving DecidableEq, Repr

namespace Thread

def afterWritesDone (thread : Thread) : Thread :=
  match thread.kind with
  | .clientReaderWriter =>
    { thread with pc := if thread.readExhausted then .finishAwait else .cancelFinish }
  | .clientWriter =>
    { thread with pc := if thread.writeStatus.isOk then .readAwait .response else .finishAwait }

def beginWritesDone (thread : Thread) (finishing : Bool) : Thread :=
  let thread := { thread with writesDone := true }
  if thread.writeStatus.isOk then { thread with pc := .runHead (.closeSend finishing) }
  else if finishing then thread.afterWritesDone
  else thread

/-- The entry of a method, up to its first critical section. -/
def begin (thread : Thread) : Op → Thread
  | .write payload =>
    if thread.writesDone || thread.finished || !thread.writeStatus.isOk then thread
    else match payload with
      | none =>
        { thread with
          writeStatus := .init .internal "failed to serialize request", pc := .cancelIdle }
      | some payload => { thread with pc := .runHead (.send payload), accepted := [] }
  | .writesDone =>
    if thread.finished || thread.writesDone then thread else thread.beginWritesDone false
  | .read =>
    if thread.kind = .clientWriter || thread.finished || !thread.parseStatus.isOk then thread
    else { thread with pc := .readAwait .read }
  | .finish =>
    if thread.finished then thread
    else if thread.writesDone then thread.afterWritesDone
    else thread.beginWritesDone true

/-- What the caller of `RunCommand` does with the status it returns. -/
def returnCommand (thread : Thread) (command : Command) (status : Status) : Thread :=
  match command with
  | .send payload =>
    { thread with
      pc := .idle, writeStatus := status,
      sends := thread.sends ++ [⟨payload, thread.accepted, status, status.isOk⟩] }
  | .closeSend false => { thread with pc := .idle, writeStatus := status }
  | .closeSend true => { thread with writeStatus := status }.afterWritesDone

def returnNoMessage (thread : Thread) : ReadGoal → Thread
  | .read => { thread with pc := .idle, readExhausted := true }
  | .response => { thread with pc := .finishAwait, responseMissing := true }
  | .extra => { thread with pc := .finishAwait }

/-- What the caller of `Read` does with a message that does or does not parse. -/
def returnMessage (thread : Thread) (goal : ReadGoal) (parses : Bool) : Thread :=
  match goal with
  | .read =>
    if parses then { thread with pc := .idle }
    else { thread with
      parseStatus := .init .internal "failed to parse response", pc := .cancelIdle }
  | .response =>
    if parses then { thread with pc := .readAwait .extra }
    else { thread with
      parseStatus := .init .internal "failed to parse response", pc := .cancelFinish }
  | .extra =>
    { thread with
      parseStatus := .init .internal "client streaming call returned multiple responses",
      pc := .cancelFinish }

/-- `Finish` after `BlockingCallState::Finish` returned `finalStatus`. -/
def complete (thread : Thread) : Thread :=
  let status := if thread.writeStatus.isOk then thread.finalStatus else thread.writeStatus
  let status :=
    if !thread.parseStatus.isOk then thread.parseStatus
    else if thread.responseMissing && status.isOk then
      .init .internal "client streaming response is missing"
    else status
  { thread with pc := .idle, finished := true, finalStatus := status }

/-- The thread's next critical section.  `answer` is what the call on the stream returns, if the
step makes one, and `parses` whether a message it reads parses.  A thread whose condition to wait
for does not hold stays where it is. -/
def next (thread : Thread) (call : CallState) (answer : ErrorCode) (parses : Bool) :
    Thread × CallState :=
  match thread.pc with
  | .idle => (thread, call)
  | .runHead command =>
    if call.terminal then (thread.returnCommand command call.status, call)
    else ({ thread with pc := .runCall command call.writableGeneration }, call)
  | .runCall command generation =>
    match if call.hasStream then answer else .closed with
    | .ok =>
      let accepted := match command with
        | .send payload => thread.accepted ++ [payload]
        | .closeSend _ => thread.accepted
      ({ thread with accepted := accepted }.returnCommand command ⟨.ok, []⟩, call)
    | .closed => ({ thread with pc := .runAwaitTerminal command }, call)
    | .wouldBlock => ({ thread with pc := .runAwaitWritable command generation }, call)
    | error => ({ thread with pc := .runFailed command error }, call)
  | .runFailed command error =>
    let status := commandStatus error
    (thread.returnCommand command status,
      call.setTerminal ⟨status.code, ascii "stream command failed: " ++ status.message⟩ [])
  | .runAwaitTerminal command =>
    if call.terminal then (thread.returnCommand command call.status, call) else (thread, call)
  | .runAwaitWritable command generation =>
    if call.terminal then (thread.returnCommand command call.status, call)
    else if call.writableGeneration ≠ generation then
      ({ thread with pc := .runHead command }, call)
    else (thread, call)
  | .readAwait goal =>
    match call.message with
    | some _ => ({ thread with pc := .readResume goal }, { call with message := none })
    | none => if call.terminal then (thread.returnNoMessage goal, call) else (thread, call)
  | .readResume goal =>
    let thread := thread.returnMessage goal parses
    if call.hasStream ∧ answer ∉ [.ok, .closed, .unavailable, .wouldBlock] then
      (thread, call.setTerminal (errorStatus answer) [])
    else (thread, call)
  | .cancelIdle => ({ thread with pc := .idle }, call.requestCancel)
  | .cancelFinish => ({ thread with pc := .finishAwait }, call.requestCancel)
  | .finishAwait =>
    if call.terminal then ({ thread with pc := .finishDestroy, finalStatus := call.status }, call)
    else (thread, call)
  | .finishDestroy => (thread.complete, { call with hasStream := false })

end Thread

end GrpcLite.Cpp
