import GrpcLite.Lib.Run
import GrpcLite.Wire.Status

/-!
# Typed dispatch of calls with one request

The callbacks that `TypedMethodRegistration` registers for unary and server-streaming methods, for
one call.  `messages`, `handled` and `finishes` are its history: what was received, the requests the
handler was invoked with, and the error statuses that were given to `Finish`.
-/

namespace GrpcLite.Cpp.Typed

inductive Payload (α : Type) where
  | oversized
  | malformed
  | request (request : α)

structure CallState (α : Type) where
  enabled : Bool := true
  found : Bool := false
  request : Option α := none
  requestCount : ℕ := 0
  rejected : Bool := false
  dispatched : Bool := false
  started : Bool := false
  cancelled : Bool := false
  terminal : Bool := false
  /-- Whether `on_remote_end` found a handler. -/
  ended : Option Bool := none
  messages : List (Payload α) := []
  handled : List α := []
  finishes : List (Code × String) := []

/-- `retained` says that the callback's `Retain` succeeds.  `disable` is the end of the service. -/
inductive Event (α : Type) where
  | start (retained : Bool)
  | message (retained : Bool) (payload : Payload α)
  | remoteEnd (retained : Bool)
  | cancel (retained : Bool)
  | terminal
  | disable

variable {α : Type}

def finish (code : Code) (text : String) (s : CallState α) : CallState α :=
  { s with finishes := s.finishes ++ [(code, text)] }

def onMessage (payload : Payload α) (s : CallState α) : CallState α :=
  if s.rejected || s.dispatched then s
  else if s.requestCount ≠ 0 then
    finish .invalidArgument "duplicate request message" { s with rejected := true }
  else
    let s := { s with requestCount := 1 }
    match payload with
    | .oversized =>
      finish .resourceExhausted "request is too large to parse" { s with rejected := true }
    | .malformed => finish .invalidArgument "failed to parse request" { s with rejected := true }
    | .request request => { s with request := some request }

def takeRequest (s : CallState α) : Option α × CallState α :=
  if s.rejected || s.dispatched then (none, s)
  else
    match s.request with
    | some request =>
      if s.requestCount = 1 then (some request, { s with dispatched := true, request := none })
      else (none, finish .invalidArgument "request message is missing" { s with rejected := true })
    | none =>
      (none, finish .invalidArgument "request message is missing" { s with rejected := true })

def onRemoteEnd (s : CallState α) : CallState α :=
  match takeRequest s with
  | (none, s) => s
  | (some request, s) =>
    if s.enabled then { s with handled := s.handled ++ [request] }
    else finish .unavailable "event service is unavailable" s

def step (s : CallState α) : Event α → CallState α
  | .start retained => { s with started := true, found := retained }
  | .message retained payload =>
    let s := { s with messages := s.messages ++ [payload] }
    if retained && s.found then onMessage payload s else s
  | .remoteEnd retained =>
    let s := { s with ended := some s.enabled }
    if retained && s.found then onRemoteEnd s else s
  -- `OnCancel` and `OnTerminal` of the typed call
  | .cancel _ => { s with cancelled := true }
  | .terminal => { s with terminal := true, found := false }
  | .disable => { s with enabled := false }

/-- The order in which the server calls back: messages, then at most one end, nothing after a
cancellation but the terminal callback, nothing after that. -/
def Raw (s : CallState α) : Event α → Prop
  | .start _ => s.started = false
  | .message _ _ | .remoteEnd _ =>
    s.started = true ∧ s.ended = none ∧ s.cancelled = false ∧ s.terminal = false
  | .cancel _ => s.started = true ∧ s.cancelled = false ∧ s.terminal = false
  | .terminal => s.started = true ∧ s.terminal = false
  | .disable => True

def Retained (_ : CallState α) : Event α → Prop
  | .start retained | .message retained _ | .remoteEnd retained => retained = true
  | _ => True

/-- The call has received one request and its end, and the service was still enabled then. -/
def Accepted (s : CallState α) (request : α) : Prop :=
  s.ended = some true ∧ s.messages = [.request request]

/-- The call was ended, or a message was sent that is not the one request. -/
def Answered (s : CallState α) : Prop :=
  s.ended.isSome ∨ 2 ≤ s.messages.length ∨ .oversized ∈ s.messages ∨ .malformed ∈ s.messages

@[grind]
structure Sound (s : CallState α) : Prop where
  found : s.found = (s.started && !s.terminal)
  count : s.requestCount = min 1 s.messages.length
  fresh : s.started = false → s.messages = [] ∧ s.ended = none ∧ s.terminal = false
  rejected : s.rejected = true → s.finishes.length = 1 ∧ s.handled = [] ∧ s.dispatched = false ∧
    (∀ request, s.messages ≠ [.request request]) ∧ Answered s
  waiting : s.rejected = false → s.dispatched = false → s.ended = none ∧ s.finishes = [] ∧
    s.handled = [] ∧ ((s.messages = [] ∧ s.request = none) ∨
      ∃ request, s.messages = [.request request] ∧ s.request = some request)
  dispatched : s.dispatched = true → ∃ request, s.messages = [.request request] ∧
    ((s.ended = some true ∧ s.handled = [request] ∧ s.finishes = []) ∨
      (s.ended = some false ∧ s.handled = [] ∧ s.finishes.length = 1))

theorem step_sound {s : CallState α} {event : Event α} (h : Sound s) (hraw : Raw s event)
    (hretained : Retained s event) : Sound (step s event) := by
  cases event with
  | start =>
    unfold step
    grind [Raw, Retained, Answered]
  | message retained payload =>
    have hsome : (s.messages ++ [payload]) ≠ [] := by simp
    cases payload <;> grind [step, onMessage, finish, Raw, Retained, Answered]
  | remoteEnd => grind [step, onRemoteEnd, takeRequest, finish, Raw, Retained, Answered]
  | cancel | disable =>
    unfold step
    grind [Answered]
  | terminal =>
    unfold step
    grind [Raw, Answered]

/-- The handler is invoked once, with the one request of a call that was ended while the service was
enabled; every other call that is answered gets one error status. -/
theorem typed_dispatch_once (events : List (Event α))
    (hevents : Run.Meets step (fun s event => Raw s event ∧ Retained s event) {} events) :
    let s := Run.final step {} events
    s.handled.length ≤ 1 ∧ (∀ request, s.handled = [request] ↔ Accepted s request) ∧
    ((∀ request, ¬ Accepted s request) → Answered s → s.finishes.length = 1 ∧ s.handled = []) := by
  have hstart : Sound ({} : CallState α) := by grind
  have hfinal : Sound (Run.final step {} events) :=
    Run.invariant (fun _ _ h hevent => step_sound h hevent.1 hevent.2) hstart hevents
  generalize Run.final step {} events = s at hfinal
  cases hrejected : s.rejected with
  | true => grind [Accepted]
  | false =>
    cases hdispatched : s.dispatched with
    | false => grind [Accepted, Answered]
    | true =>
      obtain ⟨request, hmessages, ⟨hended, hhandled, -⟩ | ⟨hended, hhandled, hfinishes⟩⟩ :=
        hfinal.dispatched hdispatched
      · simp [Accepted, hmessages, hended, hhandled]
      · simp [Accepted, hended, hhandled, hfinishes]

theorem typed_dispatch_once_request :
    let events : List (Event ℕ) :=
      [.start true, .message true (.request 7), .remoteEnd true, .terminal]
    (Run.final step {} events).handled = [7] ∧ Accepted (Run.final step {} events) 7 := by
  refine ⟨rfl, ((typed_dispatch_once _ ?_).2.1 7).1 rfl⟩
  simp [Run.Meets, Raw, Retained, step, onMessage, onRemoteEnd, takeRequest]

/-- The wrapper of the call could not be allocated when it started. -/
def unretained : List (Event ℕ) := [.start false, .remoteEnd true]

theorem unretained_call_is_not_answered :
    Run.Meets step Raw {} unretained ∧ Answered (Run.final step {} unretained) ∧
      (Run.final step {} unretained).finishes = [] := by
  simp [unretained, Run.Meets, Raw, step, Answered]

end GrpcLite.Cpp.Typed
