import GrpcLite.Server.Steps

/-!
# Flow-control credit on the server

nghttp2 leaves it to the server to say when received bytes are consumed.  The connection's credit
for a chunk is returned at once, the stream's when the chunk was taken, or when the application
resumes.
-/

namespace GrpcLite.Server

/-- Nothing has ended the call or its connection: no failure or abort, no cancel, no close and no
failed callback of nghttp2. -/
def World.Undisturbed (w : World) : Prop :=
  w.stream.resetAfterTrailers = false ∧ w.stream.cancelCalled = false ∧
    w.stream.transportClosed = false ∧ w.closing = false ∧ w.log.callbackFailed = false

instance (w : World) : Decidable w.Undisturbed := inferInstanceAs (Decidable (_ ∧ _))

/-- What was received is what was returned, what waits for a resume and what is in hand. -/
structure World.Credited (hand : Hand) (w : World) : Prop where
  connection : w.log.callbackFailed = false →
    w.log.connectionCredit + hand.owed = w.log.received.length
  connection_le : w.log.connectionCredit + hand.owed ≤ w.log.received.length
  stream_le : w.log.streamCredit + w.stream.deferredStreamCredit + hand.chunk ≤
    w.log.received.length
  whole : w.Undisturbed →
    w.log.streamCredit + w.stream.deferredStreamCredit + hand.chunk = w.log.received.length
  opened : w.Undisturbed → w.stream.receivePaused = false →
    w.stream.deferredStreamCredit = 0 ∨ hand.resuming
  unstarted : w.stream.streaming = none → w.stream.deferredStreamCredit = 0

section Credit

variable {hand : Hand} {w : World} {c : Config}

theorem World.Undisturbed.active (h : w.Undisturbed) (hbase : w.Base)
    (hstarted : w.stream.streaming.isSome) : w.stream.streamingActive := by
  by_contra hinactive
  obtain ⟨hunreset, huncancelled, hopen, _⟩ := h
  have hended := hbase.ended hstarted (by simpa using hinactive)
  rw [hunreset, huncancelled, hopen] at hended
  simp at hended

theorem World.Credited.mapStreaming (h : w.Credited hand) (f : StreamingState → StreamingState) :
    World.Credited hand
      { w with stream := { w.stream with streaming := w.stream.streaming.map f } } :=
  { h with unstarted := fun hnone => h.unstarted (by simpa using hnone) }

theorem AppMove.credited {w' : World} (hmove : AppMove w w') (h : w.Credited hand) :
    w'.Credited hand := by
  cases hmove with
  | context => exact h.mapStreaming _
  | contextTrailing entry => exact { h.mapStreaming (·.addTrailing entry) with }
  | _ => exact { h with }

theorem StopMove.credited (hmove : StopMove hand w c) (h : w.Credited hand) :
    c.world.Credited c.hand := by
  cases hmove with
  | app hmove => exact hmove.credited h
  | clear => exact { h.mapStreaming fun st => { st with outbound := [] } with }
  | cancel reason hstarted hnew hopen hcalm =>
    exact { h with
      whole := fun hcalm => absurd hcalm.2.1 nofun
      opened := fun hcalm => absurd hcalm.2.1 nofun }
  | close =>
    exact { h with
      whole := fun hcalm => absurd hcalm.2.2.2.1 nofun
      opened := fun hcalm => absurd hcalm.2.2.2.1 nofun }
  | _ => exact { h with }

theorem Move.credited (hmove : Move hand w c) (hbase : w.Base) (h : w.Credited hand) :
    c.world.Credited c.hand := by
  cases hmove with
  | stop hmove => exact hmove.credited h
  | fail | forceAbort =>
    exact { h with
      whole := fun hcalm => absurd hcalm.1 nofun
      opened := fun hcalm => absurd hcalm.1 nofun }
  | received bytes hidle =>
    obtain ⟨hchunk, _, howed⟩ := hidle
    have hlength : (w.log.received ++ bytes).length = w.log.received.length + bytes.length :=
      List.length_append
    refine
      { connection := fun hsound => ?_
        connection_le := ?_
        stream_le := ?_
        whole := fun hcalm => ?_
        opened := h.opened
        unstarted := h.unstarted }
    all_goals dsimp only; rw [hlength]
    · have hconnection := h.connection hsound
      omega
    · have hconnection := h.connection_le
      omega
    · have hstream := h.stream_le
      omega
    · have hwhole := h.whole hcalm
      omega
  | fed decoder next | decoded oom message decoder next =>
    exact { h.mapStreaming fun st => { st with decoder := next } with }
  | feedFailed | requestEncoding | remoteEndReceived => exact h.mapStreaming _
  | messageDone =>
    exact { h with opened := fun hcalm hopen => h.opened hcalm (Bool.or_eq_false_iff.mp hopen).1 }
  | remoteEnd st => exact { h.mapStreaming fun st => { st with remoteEndCalled := true } with }
  | connectionCredit =>
    exact { h with
      connection := fun hsound => h.connection hsound
      connection_le := h.connection_le }
  | streamCredit | requestCredit =>
    have hmoved : w.log.streamCredit + hand.chunk + w.stream.deferredStreamCredit + 0 =
        w.log.streamCredit + w.stream.deferredStreamCredit + hand.chunk := by omega
    exact { h with
      stream_le := hmoved.trans_le h.stream_le
      whole := fun hcalm => hmoved.trans (h.whole hcalm) }
  | deferCredit hfed hactive hpaused =>
    have hmoved : w.log.streamCredit + (w.stream.deferredStreamCredit + hand.chunk) + 0 =
        w.log.streamCredit + w.stream.deferredStreamCredit + hand.chunk := by omega
    exact { h with
      stream_le := hmoved.trans_le h.stream_le
      whole := fun hcalm => hmoved.trans (h.whole hcalm)
      opened := fun _ hopen => by cases hpaused.symm.trans hopen
      unstarted := fun hnone => absurd hnone (started_ne_none (hbase.started hactive)) }
  | withholdCredit hstarted hinactive =>
    have hdisturbed : ¬w.Undisturbed := fun hcalm =>
      by cases hinactive.symm.trans (hcalm.active hbase hstarted)
    exact { h with
      stream_le := (Nat.le_add_right _ _).trans h.stream_le
      whole := fun hcalm => absurd hcalm hdisturbed }
  | callbackFailed =>
    exact
      { connection := nofun
        connection_le := (Nat.le_add_right _ _).trans h.connection_le
        stream_le := (Nat.le_add_right _ _).trans h.stream_le
        whole := fun hcalm => absurd hcalm.2.2.2.2 nofun
        opened := fun hcalm => absurd hcalm.2.2.2.2 nofun
        unstarted := h.unstarted }
  | take bytes =>
    exact { h.mapStreaming fun st => { st with outbound := st.outbound ++ [⟨bytes, 0⟩] } with }
  | resume => exact { h with opened := fun _ _ => .inr rfl }
  | returnCredit =>
    have hmoved : w.log.streamCredit + w.stream.deferredStreamCredit + 0 + hand.chunk =
        w.log.streamCredit + w.stream.deferredStreamCredit + hand.chunk := rfl
    exact { h with
      stream_le := hmoved.trans_le h.stream_le
      whole := fun hcalm => hmoved.trans (h.whole hcalm)
      opened := fun _ _ => .inl rfl
      unstarted := fun _ => rfl }
  | resumed hkept =>
    refine { h with opened := fun hcalm hopen => .inl ?_ }
    rcases hkept with hpaused | hinactive | hnone | hclosing
    · cases hpaused.symm.trans hopen
    · refine h.unstarted (Option.not_isSome_iff_eq_none.mp fun hstarted => ?_)
      cases hinactive.symm.trans (hcalm.active hbase hstarted)
    · exact hnone
    · cases hclosing.symm.trans hcalm.2.2.2.1
  | handOver item rest length =>
    exact { h.mapStreaming fun st =>
      { st with outbound := { item with offset := item.offset + length } :: rest } with }
  | complete => exact { h.mapStreaming fun st => { st with outbound := st.outbound.tail } with }
  | retire =>
    exact { h with
      whole := fun hcalm => absurd hcalm.2.2.1 nofun
      opened := fun hcalm => absurd hcalm.2.2.1 nofun }
  | _ => exact { h with }

theorem credited_invariant : Invariant fun hand w => w.Credited hand where
  move hmove hbase h := hmove.credited hbase h
  accept := by
    intro w handler requestCompression hready hbase h
    have hnone : w.stream.deferredStreamCredit = 0 := h.unstarted hready.unstarted
    exact { h with
      opened := fun _ _ => .inl hnone
      unstarted := nofun }
  marked _ h := { h with }

end Credit

theorem World.IsRequest.credited {w : World} (hw : w.IsRequest) : w.Credited {} := by
  rw [hw]
  exact
    { connection := fun _ => rfl
      connection_le := le_rfl
      stream_le := le_rfl
      whole := fun _ => rfl
      opened := fun _ _ => .inl rfl
      unstarted := fun _ => rfl }

end GrpcLite.Server
