import GrpcLite.Server.Credit
import GrpcLite.Client.Credit
import GrpcLite.Client.Outcome

/-!
# Flow-control credit at both ends

nghttp2 is told by the code when received bytes are consumed, for the connection and for the
stream.  Every stream's share of the two accounts is kept on both ends and for both kinds of call.
-/

namespace GrpcLite.Connection

/-- One stream's share of the accounts.  `disturbed` says that a failure, an abort, a reset or a
close of the stream or its connection is recorded. -/
structure CreditAccount where
  received : ℕ
  connectionCredit : ℕ
  streamCredit : ℕ
  deferredStreamCredit : ℕ
  receivePaused : Bool
  callbackFailed : Bool
  disturbed : Bool
  deriving DecidableEq, Repr

structure CreditAccount.Conserved (a : CreditAccount) : Prop where
  connection : a.callbackFailed = false → a.connectionCredit = a.received
  connection_le : a.connectionCredit ≤ a.received
  stream : a.disturbed = false → a.streamCredit + a.deferredStreamCredit = a.received
  unpaused : a.disturbed = false → a.receivePaused = false → a.deferredStreamCredit = 0
  stream_le : a.streamCredit ≤ a.received

def serverAccount (w : Server.World) : CreditAccount where
  received := w.log.received.length
  connectionCredit := w.log.connectionCredit
  streamCredit := w.log.streamCredit
  deferredStreamCredit := w.stream.deferredStreamCredit
  receivePaused := w.stream.receivePaused
  callbackFailed := w.log.callbackFailed
  disturbed := ¬w.Undisturbed

def streamAccount (w : Client.World) : CreditAccount where
  received := w.log.received.length
  connectionCredit := w.log.connectionCredit
  streamCredit := w.log.streamCredit
  deferredStreamCredit := w.stream.deferredStreamCredit
  receivePaused := w.stream.receivePaused
  callbackFailed := w.log.callbackFailed
  disturbed := ¬w.Undisturbed

/-- A unary call defers nothing. -/
def operationAccount (w : Client.OperationWorld) : CreditAccount where
  received := w.log.received.length
  connectionCredit := w.log.connectionCredit
  streamCredit := w.log.streamCredit
  deferredStreamCredit := 0
  receivePaused := false
  callbackFailed := w.log.callbackFailed
  disturbed := w.operation.outcomeSet ∨ w.operation.responseHeadersTooLarge ∨ w.log.callbackFailed

theorem serverAccount_conserved {w : Server.World} (h : w.Credited { batch := w.batch }) :
    (serverAccount w).Conserved where
  connection hcalm := h.connection hcalm
  connection_le := h.connection_le
  stream hcalm := h.whole (by simpa [serverAccount] using hcalm)
  unpaused hcalm hopen :=
    (h.opened (by simpa [serverAccount] using hcalm) hopen).resolve_right nofun
  stream_le := (Nat.le_add_right _ _).trans h.stream_le

theorem streamAccount_conserved {w : Client.World} (h : w.Credited 0 0 False) :
    (streamAccount w).Conserved where
  connection hcalm := h.connection hcalm
  connection_le := h.connection_le
  stream hcalm := h.whole (by simpa [streamAccount] using hcalm)
  unpaused hcalm hopen := (h.opened (by simpa [streamAccount] using hcalm) hopen).resolve_right id
  stream_le := (Nat.le_add_right _ _).trans h.stream_le

theorem operationAccount_conserved {w : Client.OperationWorld} (h : w.credit.Balanced) :
    (operationAccount w).Conserved where
  connection hcalm := h.connection hcalm
  connection_le := h.connection_le
  stream hcalm := by
    obtain ⟨_, hfits, hcalm⟩ : w.operation.outcomeSet = false ∧
        w.operation.responseHeadersTooLarge = false ∧ w.log.callbackFailed = false := by
      simpa [operationAccount] using hcalm
    exact h.stream hcalm hfits
  unpaused _ _ := rfl
  stream_le := h.stream_le

/-- Credit is conserved in every run of a server call, a client stream and a unary call. -/
theorem credit_conserved :
    (∀ (w : Server.World) (events : List Server.Event), w.IsRequest →
      ∀ s ∈ w.states events, (serverAccount s).Conserved) ∧
    (∀ (w : Client.World) (events : List Client.Event), w.IsOpened →
      (streamAccount (Run.final Client.step w events)).Conserved) ∧
    ∀ (w : Client.OperationWorld) (events : List Client.Operation.Event), w.IsEnqueued →
      (operationAccount (Run.final Client.Operation.step w events)).Conserved := by
  refine ⟨fun w events hw s hs => ?_, fun w events hw => ?_, fun w events hw => ?_⟩
  · exact serverAccount_conserved (Server.credited_invariant.states hw events hw.credited s hs).2
  · exact streamAccount_conserved (hw.always_credited events)
  · exact operationAccount_conserved (hw.always_balanced events)

/-- A byte of a request without handler and a response of five bytes. -/
theorem credit_conserved_sample :
    (serverAccount (Run.final Server.step Server.plainRequest [.data [0]])).connectionCredit = 1 ∧
    (streamAccount (Run.final Client.step Client.sampleStream
      (Client.answer [0, 0, 0, 0, 0]))).connectionCredit = 5 ∧
    (operationAccount (Run.final Client.Operation.step Client.sampleOperation
      [.process 0 1, .data [0, 0, 0, 0, 0]])).streamCredit = 5 :=
  ⟨((credit_conserved.1 Server.plainRequest [.data [0]] Server.plainRequest_isRequest
        (Run.final Server.step Server.plainRequest [.data [0]])
        (by simp [Server.World.states])).connection (by decide +kernel)).trans (by decide +kernel),
    ((credit_conserved.2.1 Client.sampleStream (Client.answer [0, 0, 0, 0, 0])
        Client.sampleStream_opened).connection (by decide +kernel)).trans (by decide +kernel),
    ((credit_conserved.2.2 Client.sampleOperation [.process 0 1, .data [0, 0, 0, 0, 0]]
        Client.sampleOperation_enqueued).stream (by decide +kernel)).trans (by decide +kernel)⟩

/-- Memory runs out while a call collects a byte of its response: the callback fails, nothing is
returned for the byte, and the channel stops. -/
theorem failed_callback_returns_no_credit :
    let w := Run.final Client.Operation.step
      { Client.sampleOperation with
        operation := { maxResponseSize := 100 }, faults := [false, false, true] }
      [.process 0 1, .data [0]]
    (operationAccount w).received = 1 ∧ (operationAccount w).connectionCredit = 0 ∧ w.stopping := by
  decide +kernel

end GrpcLite.Connection
