import GrpcLite.Server.Accounting

/-!
# The callbacks of a streaming handler

`Protocol` says in which order a handler may be called back.  The callbacks of every call are a run
of it, however the peer, the deadline, the application and the closing of the connection interleave.
-/

namespace GrpcLite.Server

structure Protocol where
  started : Bool := false
  requestEnded : Bool := false
  cancelled : Bool := false
  terminal : Bool := false
  deriving DecidableEq

def Protocol.live (p : Protocol) : Bool := p.started && !p.cancelled && !p.terminal

def Protocol.next (p : Protocol) : Callback → Option Protocol
  | .start => if p.started then none else some { p with started := true }
  | .message _ | .writable => if p.live then some p else none
  | .remoteEnd => if p.live && !p.requestEnded then some { p with requestEnded := true } else none
  | .cancel => if p.started && !p.cancelled then some { p with cancelled := true } else none
  | .terminal => if p.started && !p.terminal then some { p with terminal := true } else none

def Exchange.callback? : Exchange → Option Callback
  | .callback kind => some kind
  | _ => none

def Log.protocol (log : Log) : Option Protocol :=
  (log.exchanges.filterMap Exchange.callback?).foldlM Protocol.next {}

structure World.Told (hand : Hand) (w : World) (p : Protocol) : Prop where
  told : w.log.protocol = some p
  started : p.started = w.stream.streaming.isSome
  requestEnded : p.requestEnded = w.stream.streaming.any (·.remoteEndCalled)
  active : w.stream.streamingActive → p.live ∧ w.stream.cancelCalled = false
  cancelled : p.cancelled.toNat + hand.cancelling.toNat ≤ w.stream.cancelCalled.toNat
  stopped : w.stream.cancelCalled → p.started
  terminal : p.terminal = (p.started && w.stream.callControl.all (·.terminal))
  gone : w.destroyed ≠ 0 → w.stream.callControl = none
  unstarted : p.started = false →
    w.stream.outboundReservedBytes = 0 ∧ w.stream.writableRequested = false
  blocked : w.stream.writableRequested → w.stream.streamingActive → w.stream.finishQueued = false →
    hand.failing = false → 0 < w.stream.outboundReservedBytes

variable {w w' : World} {hand : Hand} {c : Config} {p q : Protocol} {kind : Callback}

theorem protocol_noted (h : w.log.protocol = some p) (hnext : p.next kind = some q) :
    (w.noted (.callback kind)).log.protocol = some q := by
  rw [Log.protocol] at h ⊢
  have hone : [Exchange.callback kind].filterMap Exchange.callback? = [kind] := rfl
  rw [World.noted, List.filterMap_append, hone, List.foldlM_append, h]
  simpa using hnext

theorem protocol_other (w : World) (exchange : Exchange) (hother : exchange.callback? = none) :
    (w.noted exchange).log.protocol = w.log.protocol := by
  simp [Log.protocol, World.noted, hother]

theorem called_map {streaming : Option StreamingState} {f : StreamingState → StreamingState}
    (hf : ∀ st, (f st).remoteEndCalled = st.remoteEndCalled) :
    (streaming.map f).any (·.remoteEndCalled) = streaming.any (·.remoteEndCalled) := by
  cases streaming <;> simp [hf]

theorem World.Told.begun (h : w.Told hand p) (hactive : w.stream.streamingActive) :
    p.started ≠ false := by
  have hlive := (h.active hactive).1
  intro hnone
  rw [Protocol.live, hnone] at hlive
  exact absurd hlive nofun

theorem World.Told.unreserved (h : w.Told hand p) (length : ℕ) (hnone : p.started = false) :
    w.stream.outboundReservedBytes - length = 0 ∧ w.stream.writableRequested = false := by
  rw [(h.unstarted hnone).1, Nat.zero_sub]
  exact ⟨rfl, (h.unstarted hnone).2⟩

theorem AppMove.told (hmove : AppMove w w') (h : w.Told hand p) : w'.Told hand p := by
  cases hmove with
  | note => exact { h with told := (protocol_other w _ rfl).trans h.told }
  | blocked hreserved =>
    exact { h with
      unstarted := fun hnone => absurd (h.unstarted hnone).1 hreserved.ne'
      blocked := fun _ _ _ _ => hreserved }
  | send index send hsend hallowed =>
    exact { h with
      unstarted := fun hnone => absurd hnone (h.begun hallowed.active)
      blocked := fun hblocked hactive hopen hcalm =>
        Nat.add_pos_left (h.blocked hblocked hactive hopen hcalm) _ }
  | finish | abort => exact { h with blocked := nofun }
  | context | contextTrailing =>
    exact { h with
      started := h.started.trans Option.isSome_map.symm
      requestEnded :=
        h.requestEnded.trans (called_map (by simp [StreamingState.addTrailing])).symm }
  | _ => exact { h with }

theorem StopMove.told (hmove : StopMove hand w c) (hbase : w.Base) (h : w.Told hand p) :
    ∃ p, c.world.Told c.hand p := by
  cases hmove with
  | app hmove => exact ⟨p, hmove.told h⟩
  | release length rest hheld hquiet =>
    refine ⟨p, { h with
      unstarted := h.unreserved length
      blocked := fun hblocked hactive hopen hcalm => ?_ }⟩
    -- with the last reserved bytes gone, the handler would have been told
    refine Nat.pos_of_ne_zero fun hnone => ?_
    have hquiet := hquiet.resolve_left fun hfailing =>
      by cases hfailing.symm.trans hcalm
    exact hquiet ⟨hblocked, hactive, hopen, (hbase.running hactive).2,
      hnone.trans_le (Nat.zero_le _)⟩
  | writable length rest hheld hwritable =>
    exact ⟨p, { h with
      told := protocol_noted h.told (if_pos (h.active hwritable.2.1).1)
      unstarted := fun hnone => absurd hnone (h.begun hwritable.2.1)
      blocked := nofun }⟩
  | discard hinactive =>
    exact ⟨p, { h with
      unstarted := h.unreserved _
      blocked := fun _ hactive => by cases hinactive.symm.trans hactive }⟩
  | clear =>
    exact ⟨p, { h with
      started := h.started.trans Option.isSome_map.symm
      requestEnded := h.requestEnded.trans (called_map (by simp)).symm }⟩
  | cancel reason hstarted hnew hopen hcalm =>
    have hcontrol : (w.stream.callControl.map fun control => { control with cancelled := true }).all
        (·.terminal) = w.stream.callControl.all (·.terminal) := by
      cases w.stream.callControl <;> rfl
    have hcancelled := h.cancelled
    rw [hnew, hcalm] at hcancelled
    exact ⟨p, { h with
      active := nofun
      blocked := nofun
      cancelled := Nat.add_le_add_right hcancelled 1
      stopped := fun _ => h.started.trans hstarted
      terminal := hcontrol ▸ h.terminal
      gone := fun hgone => by simp [h.gone hgone] }⟩
  | cancelFlag => exact ⟨p, { h with told := (protocol_other w _ rfl).trans h.told }⟩
  | cancelled hdue =>
    have hcancelled := h.cancelled
    rw [hdue] at hcancelled
    cases hcalled : w.stream.cancelCalled <;> cases hold : p.cancelled <;>
      simp [hcalled, hold] at hcancelled
    have hnext : p.next .cancel = some { p with cancelled := true } := by
      simp [Protocol.next, h.stopped hcalled, hold]
    exact ⟨_, { h with
      told := protocol_noted h.told hnext
      active := fun hactive => by cases (h.active hactive).2.symm.trans hcalled
      cancelled := hcalled.symm ▸ Nat.le_refl 1 }⟩
  | _ => exact ⟨p, { h with }⟩

theorem Move.told (hmove : Move hand w c) (hbase : w.Base) (h : w.Told hand p) :
    ∃ p, c.world.Told c.hand p := by
  cases hmove with
  | stop hmove => exact hmove.told hbase h
  | fail | forceAbort | retire => exact ⟨p, { h with active := nofun, blocked := nofun }⟩
  | failed hinactive =>
    exact ⟨p, { h with blocked := fun _ hactive => by cases hinactive.symm.trans hactive }⟩
  | allocationFailed => exact ⟨p, { h with blocked := nofun }⟩
  | fed | feedFailed | decoded | requestEncoding | remoteEndReceived | take | handOver | complete =>
    exact ⟨p, { h with
      started := h.started.trans Option.isSome_map.symm
      requestEnded := h.requestEnded.trans (called_map (by simp)).symm }⟩
  | message payload hmessage hactive =>
    exact ⟨p, { h with told := protocol_noted h.told (if_pos (h.active hactive).1) }⟩
  | remoteEnd st oom hstarted hactive hopen hreceived hnew =>
    have hnext : p.next .remoteEnd = some { p with requestEnded := true } := by
      simp [Protocol.next, (h.active hactive).1, h.requestEnded, hstarted, hnew]
    exact ⟨_, { h with
      told := protocol_noted h.told hnext
      started := h.started.trans Option.isSome_map.symm
      requestEnded := by
        show true = (w.stream.streaming.map _).any _
        rw [hstarted]
        rfl }⟩
  | terminal control hcontrol hnew hclosed hstarted =>
    have htold := (protocol_other (w.terminated control) .terminal rfl).trans h.told
    have hbegun : p.started := h.started.trans hstarted
    have hnext : p.next .terminal = some { p with terminal := true } := by
      simp [Protocol.next, hbegun, h.terminal, hcontrol, hnew]
    exact ⟨_, { h with
      told := protocol_noted htold hnext
      active := fun hactive => by cases (hbase.running hactive).2.symm.trans hclosed
      terminal := (congrArg (· && true) hbegun).symm
      gone := fun hgone => by cases hcontrol.symm.trans (h.gone hgone) }⟩
  | controlGone hdone hclosed =>
    have hall : w.stream.callControl.all (·.terminal) = true := (Option.all_eq_true _ _).mpr hdone
    exact ⟨p, { h with terminal := by rw [h.terminal, hall]; rfl, gone := fun _ => rfl }⟩
  | destroy hretiring hreleased hclosed hcontrol =>
    exact ⟨p, { h with
      gone := fun _ => hcontrol
      unstarted := h.unreserved _
      blocked := fun _ hactive => by cases (hbase.running hactive).2.symm.trans hclosed }⟩
  | _ => exact ⟨p, { h with }⟩

theorem told_invariant : Invariant fun hand w => ∃ p, w.Told hand p where
  move := fun hmove hbase ⟨_, h⟩ => hmove.told hbase h
  accept := fun {w} handler requestCompression hready hbase ⟨p, h⟩ => by
    have hunstarted : p.started = false := by rw [h.started, hready.unstarted]; rfl
    have huncalled : w.stream.cancelCalled = false :=
      Bool.eq_false_iff.mpr fun hcalled => by cases hunstarted.symm.trans (h.stopped hcalled)
    have hcalm : p.cancelled = false := by
      have hcancelled := h.cancelled
      rw [huncalled] at hcancelled
      exact Bool.toNat_eq_zero.mp (Nat.le_zero.mp hcancelled)
    have hopen : p.terminal = false := by rw [h.terminal, hunstarted]; rfl
    have hnext : p.next .start = some { p with started := true } := by
      simp [Protocol.next, hunstarted]
    exact ⟨_,
      { h with
        told := protocol_noted h.told hnext
        started := rfl
        requestEnded := h.requestEnded.trans (by rw [hready.unstarted]; rfl)
        active := fun _ => ⟨by simp [Protocol.live, hcalm, hopen], huncalled⟩
        stopped := fun _ => rfl
        terminal := hopen
        gone := fun hgone => absurd (hbase.alive hready.opened) hgone
        unstarted := nofun
        blocked := fun hblocked => by cases (h.unstarted hunstarted).2.symm.trans hblocked }⟩
  marked := fun _ ⟨p, h⟩ => ⟨p, { h with }⟩

theorem World.IsRequest.told (hw : w.IsRequest) (events : List Event) :
    ∃ p, (Run.final step w events).Told {} p := by
  refine told_invariant.run hw events ?_
  rw [hw]
  exact ⟨{}, rfl, rfl, rfl, nofun, Nat.zero_le _, nofun, rfl, nofun, fun _ => ⟨rfl, rfl⟩, nofun⟩

/-- Every run calls its handler as the protocol allows, and a handler that was started has been told
of the end of its call when the stream is destroyed. -/
theorem callbacks_follow_protocol (hw : w.IsRequest) (events : List Event) :
    ∃ p, (Run.final step w events).log.protocol = some p ∧
      (p.started → (Run.final step w events).destroyed ≠ 0 → p.terminal) := by
  obtain ⟨p, h⟩ := hw.told events
  refine ⟨p, h.told, fun hstarted hgone => ?_⟩
  rw [h.terminal, h.gone hgone, hstarted]
  rfl

theorem callbacks_follow_protocol_halfSent :
    let w := Run.final step plainRequest halfSent
    (∃ p, w.log.protocol = some p ∧ (p.started → w.destroyed ≠ 0 → p.terminal)) ∧
      w.log.protocol = some { started := true, cancelled := true, terminal := true } :=
  ⟨callbacks_follow_protocol plainRequest_isRequest halfSent, by decide +kernel⟩

/-- While a handler waits for `on_writable` on an active call that it has not finished, bytes of its
frames are queued, in commands or for nghttp2. -/
theorem blocked_handler_has_queued_bytes (hw : w.IsRequest) (events : List Event) :
    let w' := Run.final step w events
    w'.stream.writableRequested → w'.stream.streamingActive → w'.stream.finishQueued = false →
      0 < w'.unsent + queuedSendBytes w'.queue := by
  intro w' hblocked hactive hopen
  obtain ⟨p, h⟩ := hw.told events
  have hreserved := h.blocked hblocked hactive hopen rfl
  have haccounted := ((accounted_invariant w.gauge).run hw events hw.owned).2
  have hlive : w'.destroyed = 0 := by
    by_contra hgone
    exact hreserved.ne' (haccounted.gone hgone).1
  exact haccounted.reserved hlive ▸ hreserved

def narrowRequest : World := { plainRequest with limits := { maxOutboundBufferSize := 6 } }

theorem blocked_handler_has_queued_bytes_narrow :
    let w := Run.final step narrowRequest [.start 0 {}, .app (.sendBegin .borrowed [7] .identity),
      .app (.sendCommit 0), .app (.sendBegin .borrowed [8] .identity), .app (.sendCommit 0)]
    w.stream.writableRequested ∧ 0 < w.unsent + queuedSendBytes w.queue :=
  ⟨by decide +kernel, blocked_handler_has_queued_bytes (w := narrowRequest) rfl _
    (by decide +kernel) (by decide +kernel) (by decide +kernel)⟩

end GrpcLite.Server
