import GrpcLite.Server.Steps

/-!
# Reservations and references

An accepted send reserves the bytes of its frame until nghttp2 has taken them or they are dropped,
and a queued command refers to its stream until it was carried out or discarded.  Both are counted
by the stream, and the reservations of all streams once more by the gauge of their reactor.
-/

namespace GrpcLite.Server

open Prog

/-! ## Bytes in queues -/

@[simp] theorem queuedSendBytes_nil : queuedSendBytes [] = 0 := rfl

@[simp] theorem queuedSendBytes_append (commands rest : List CommandAction) :
    queuedSendBytes (commands ++ rest) = queuedSendBytes commands + queuedSendBytes rest := by
  unfold queuedSendBytes
  rw [List.map_append, List.sum_append]

theorem queuedSendBytes_send (bytes : Bytes) (rest : List CommandAction) :
    queuedSendBytes (.send bytes :: rest) = bytes.length + queuedSendBytes rest := rfl

theorem queuedSendBytes_other {command : CommandAction} (hcommand : command.isSend = false)
    (rest : List CommandAction) : queuedSendBytes (command :: rest) = queuedSendBytes rest := by
  cases command with
  | send => cases hcommand
  | _ => exact Nat.zero_add _

theorem outboundBytes_concat (outbound : List OutboundMessage) (bytes : Bytes) :
    outboundBytes (outbound ++ [⟨bytes, 0⟩]) = outboundBytes outbound + bytes.length := by
  unfold outboundBytes
  rw [List.map_append, List.sum_append]
  rfl

theorem outboundBytes_cons (item : OutboundMessage) (rest : List OutboundMessage) :
    outboundBytes (item :: rest) = (item.bytes.length - item.offset) + outboundBytes rest := by
  unfold outboundBytes
  rw [List.map_cons, List.sum_cons]

variable {w : World} {hand : Hand}

variable {outbound : List OutboundMessage} {c : Config} {streams : List World} {r : ReactorStreams}

theorem unsent_of_outbound (hout : w.stream.streaming.map (·.outbound) = some outbound) :
    w.unsent = outboundBytes outbound := by
  unfold World.unsent
  rw [outbound_of_map hout]

theorem unsent_map (hout : w.stream.streaming.map (·.outbound) = some outbound)
    (f : StreamingState → StreamingState) (g : List OutboundMessage → List OutboundMessage)
    (hf : ∀ st, (f st).outbound = g st.outbound) :
    World.unsent { w with stream := { w.stream with streaming := w.stream.streaming.map f } } =
      outboundBytes (g outbound) := by
  unfold World.unsent
  rw [outbound_update hout f g hf]

theorem unsent_eq (w : World) {f : StreamingState → StreamingState}
    (hf : ∀ st, (f st).outbound = st.outbound) :
    World.unsent { w with stream := { w.stream with streaming := w.stream.streaming.map f } } =
      w.unsent := by
  unfold World.unsent
  rw [outbound_map w hf]

/-! ## Who owns a stream -/

/-- A stream lives until it is retired, and it is retired when it leaves its connection. -/
structure World.Owned (hand : Hand) (w : World) : Prop where
  rested : w.Rested hand
  destroyed : w.destroyed = if w.registered ∨ hand.retiring then 0 else 1

theorem World.Owned.live (h : w.Owned hand) (hretiring : hand.retiring) : w.destroyed = 0 := by
  rw [h.destroyed, if_pos (.inr hretiring)]

theorem StopMove.owned (hmove : StopMove hand w c) (hbase : w.Base) (h : w.Owned hand) :
    c.world.Owned c.hand := by
  refine ⟨hmove.rested hbase h.rested, ?_⟩
  cases hmove with
  | app hmove =>
    have hsame := hmove.same (.refl _)
    rw [hsame.destroyed, hsame.registered]
    exact h.destroyed
  | _ => exact h.destroyed

theorem Move.owned (hmove : Move hand w c) (hbase : w.Base) (h : w.Owned hand) :
    c.world.Owned c.hand := by
  refine ⟨hmove.rested hbase h.rested, ?_⟩
  cases hmove with
  | stop hmove => exact (hmove.owned hbase h).destroyed
  | unregister hregistered =>
    rw [if_pos (.inr rfl)]
    rw [h.destroyed, if_pos (.inl hregistered)]
  | destroy hretiring hreleased hclosed =>
    have hgone := hbase.unregistered hclosed
    show w.destroyed + 1 = if w.registered ∨ false then 0 else 1
    rw [h.live hretiring, hgone]
    rfl
  | _ => exact h.destroyed

/-! ## What is reserved -/

/-- The bytes that a stream has reserved, and those that the gauge counts: `others` are the bytes of
the reactor's other streams. -/
structure World.Accounted (others : ℕ) (hand : Hand) (w : World) : Prop where
  reserved : w.destroyed = 0 → w.stream.outboundReservedBytes =
    w.unsent + queuedSendBytes (hand.held w.batch ++ w.commands) + hand.releasing
  gone : w.destroyed ≠ 0 → w.stream.outboundReservedBytes = 0 ∧ hand.releasing = 0
  bounded : w.stream.outboundReservedBytes ≤ w.limits.maxOutboundBufferSize
  gauge : w.gauge = others + w.stream.outboundReservedBytes
  sound : w.violations = []

section Accounting

variable {others : ℕ} {hand : Hand} {w : World} {c : Config}

theorem World.Accounted.releasing_le (h : w.Accounted others hand) :
    hand.releasing ≤ w.stream.outboundReservedBytes := by
  by_cases hlive : w.destroyed = 0
  · rw [h.reserved hlive]
    exact Nat.le_add_left _ _
  · rw [(h.gone hlive).2]
    exact Nat.zero_le _

variable {length : ℕ}

section

variable (h : w.Accounted others hand)

include h

theorem World.Accounted.unreserve_sound
    (hlength : length ≤ w.stream.outboundReservedBytes) : (w.unreserve length).violations = [] := by
  have hgauge : length ≤ w.gauge := by
    rw [h.gauge]
    exact hlength.trans (Nat.le_add_left _ _)
  simp [World.unreserve, violation, hlength, hgauge, h.sound]

theorem World.Accounted.unreserve_gauge (hlength : length ≤ w.stream.outboundReservedBytes) :
    (w.unreserve length).gauge = others + (w.unreserve length).stream.outboundReservedBytes := by
  show w.gauge - length = others + (w.stream.outboundReservedBytes - length)
  rw [h.gauge, Nat.add_sub_assoc hlength]

theorem World.Accounted.release {rest : ℕ} (hheld : hand.releasing = rest + length) :
    (w.unreserve length).Accounted others { hand with releasing := rest } := by
  have hlength : length ≤ w.stream.outboundReservedBytes := by
    refine le_trans ?_ h.releasing_le
    rw [hheld]
    exact Nat.le_add_left _ _
  refine ⟨fun hlive => ?_, fun hgone => ?_, ?_, h.unreserve_gauge hlength,
    h.unreserve_sound hlength⟩
  · have hreserved := h.reserved hlive
    show w.stream.outboundReservedBytes - length =
      w.unsent + queuedSendBytes (hand.held w.batch ++ w.commands) + rest
    omega
  · obtain ⟨hnone, hreleased⟩ := h.gone hgone
    refine ⟨?_, Nat.eq_zero_of_add_eq_zero_right (hheld.symm.trans hreleased)⟩
    show w.stream.outboundReservedBytes - length = 0
    rw [hnone, Nat.zero_sub]
  · exact (Nat.sub_le _ _).trans h.bounded

theorem World.Accounted.mapStreaming {f : StreamingState → StreamingState}
    (hf : ∀ st, (f st).outbound = st.outbound) :
    World.Accounted others hand
      { w with stream := { w.stream with streaming := w.stream.streaming.map f } } :=
  { h with reserved := fun hlive => by rw [unsent_eq w hf]; exact h.reserved hlive }

theorem World.Accounted.enqueue (command : CommandAction) (hcommand : command.isSend = false) :
    World.Accounted others hand { w with
      commands := w.commands ++ [command]
      stream := { w.stream with commandRefs := w.stream.commandRefs + 1 } } := by
  refine { h with reserved := fun hlive => (h.reserved hlive).trans ?_ }
  have hnone : queuedSendBytes [command] = 0 := queuedSendBytes_other hcommand []
  show _ = w.unsent + queuedSendBytes (hand.held w.batch ++ (w.commands ++ [command])) +
    hand.releasing
  rw [← List.append_assoc, queuedSendBytes_append _ [command], hnone, Nat.add_zero]

end

variable {w' : World}

theorem AppMove.accounted (hmove : AppMove w w') (hbase : w.Base) (h : w.Accounted others hand) :
    w'.Accounted others hand := by
  cases hmove with
  | send index send hsend hallowed hfits =>
    have hlive : w.destroyed = 0 := hbase.alive (hbase.running hallowed.active).2
    refine ⟨fun _ => ?_, fun hgone => absurd hlive hgone, hfits, ?_, h.sound⟩
    · have hreserved := h.reserved hlive
      show w.stream.outboundReservedBytes + send.encoded.length = w.unsent +
        queuedSendBytes (hand.held w.batch ++ (w.commands ++ [.send send.encoded])) + hand.releasing
      rw [← List.append_assoc, queuedSendBytes_append _ [CommandAction.send send.encoded],
        queuedSendBytes_send, queuedSendBytes_nil]
      omega
    · show w.gauge + send.encoded.length =
        others + (w.stream.outboundReservedBytes + send.encoded.length)
      rw [h.gauge, Nat.add_assoc]
  | initialMetadata entries compression =>
    exact { h.enqueue (.initialMetadata entries compression) rfl with }
  | finish status trailing => exact { h.enqueue (.finish status trailing) rfl with }
  | resumeQueued => exact { h.enqueue .resumeReceive rfl with }
  | context => exact h.mapStreaming fun _ => rfl
  | contextTrailing entry => exact { h.mapStreaming (f := (·.addTrailing entry)) fun _ => rfl with }
  | _ => exact { h with }

theorem StopMove.accounted (hmove : StopMove hand w c) (hbase : w.Base)
    (h : w.Accounted others hand) : c.world.Accounted others c.hand := by
  cases hmove with
  | app hmove => exact hmove.accounted hbase h
  | release length rest hheld => exact h.release hheld
  | writable length rest hheld => exact { h.release hheld with }
  | discard hinactive hlive =>
    have hreserved := h.reserved hlive
    rw [queuedSendBytes_append] at hreserved
    have hlength : queuedSendBytes w.commands ≤ w.stream.outboundReservedBytes := by omega
    have hreferenced : w.commands.length ≤ w.stream.commandRefs := by
      rw [hbase.references, World.queue, List.length_append]
      exact Nat.le_add_left _ _
    have hsound : (w.unreference w.commands.length).Accounted others hand := by
      refine { h with sound := ?_ }
      simp [World.unreference, violation, hreferenced, h.sound]
    refine ⟨fun _ => ?_, fun hgone => absurd hlive hgone, ?_, hsound.unreserve_gauge hlength,
      hsound.unreserve_sound hlength⟩
    · show w.stream.outboundReservedBytes - queuedSendBytes w.commands =
        w.unsent + queuedSendBytes (hand.held w.batch ++ []) + hand.releasing
      rw [List.append_nil]
      omega
    · exact (Nat.sub_le _ _).trans h.bounded
  | clear hinactive hopen =>
    have hlive := hbase.alive hopen
    refine { h with
      reserved := fun _ => (h.reserved hlive).trans ?_
      gone := fun hgone => absurd hlive hgone }
    have hcleared : World.unsent { w with stream := { w.stream with
        streaming := w.stream.streaming.map fun st => { st with outbound := [] } } } = 0 := by
      unfold World.unsent
      rw [outbound_clear]
      rfl
    rw [hcleared]
    show w.unsent + queuedSendBytes (hand.held w.batch ++ w.commands) + hand.releasing =
      0 + queuedSendBytes (hand.held w.batch ++ w.commands) + (hand.releasing + w.unsent)
    omega
  | _ => exact { h with }

/-- A frame on its way to the outbound queue, or out of it: what leaves one place is in another. -/
theorem World.Accounted.shift {hand' : Hand} (h : w.Accounted others hand) (hlive : w.destroyed = 0)
    (hsame : w'.destroyed = w.destroyed)
    (hreserved : w'.stream.outboundReservedBytes = w.stream.outboundReservedBytes)
    (hlimits : w'.limits = w.limits) (hgauge : w'.gauge = w.gauge)
    (hsound : w'.violations = w.violations)
    (hshift : w'.unsent + queuedSendBytes (hand'.held w'.batch ++ w'.commands) + hand'.releasing =
      w.unsent + queuedSendBytes (hand.held w.batch ++ w.commands) + hand.releasing) :
    w'.Accounted others hand' := by
  refine ⟨fun _ => ?_, fun hgone => absurd (hsame.trans hlive) hgone, ?_, ?_, hsound.trans h.sound⟩
  · rw [hreserved, hshift]
    exact h.reserved hlive
  · rw [hreserved, hlimits]
    exact h.bounded
  · rw [hgauge, hreserved]
    exact h.gauge

theorem Move.accounted (hmove : Move hand w c) (hbase : w.Base) (howned : w.Owned hand)
    (h : w.Accounted others hand) : c.world.Accounted others c.hand := by
  cases hmove with
  | stop hmove => exact hmove.accounted hbase h
  | fed decoder next | decoded oom message decoder next =>
    exact { h.mapStreaming (f := fun st => { st with decoder := next }) fun _ => rfl with }
  | feedFailed | requestEncoding | remoteEndReceived => exact h.mapStreaming fun _ => rfl
  | remoteEnd st =>
    exact { h.mapStreaming (f := fun st => { st with remoteEndCalled := true }) fun _ => rfl with }
  | take bytes rest hbatch hactive hnew =>
    have hlive : w.destroyed = 0 := hbase.alive (hbase.running hactive).2
    obtain ⟨st, hst⟩ := Option.isSome_iff_exists.mp (hbase.started hactive)
    have hout : w.stream.streaming.map (·.outbound) =
        some st.outbound := by rw [hst, Option.map_some]
    refine h.shift hlive rfl rfl rfl rfl rfl ?_
    rw [unsent_map hout _ (· ++ [⟨bytes, 0⟩]) fun _ => rfl, outboundBytes_concat,
      unsent_of_outbound hout]
    show outboundBytes st.outbound + bytes.length + queuedSendBytes (w.batch.tail ++ w.commands) +
      hand.releasing = _
    unfold Hand.held
    rw [hnew, hbatch, if_neg Bool.false_ne_true, List.cons_append, queuedSendBytes_send,
      List.tail_cons]
    omega
  | dropSend bytes rest hbatch hnew =>
    refine h.shift (hbase.alive (hbase.opened_of_batch hbatch)) rfl rfl rfl rfl rfl ?_
    show w.unsent + queuedSendBytes (w.batch.tail ++ w.commands) +
      (hand.releasing + bytes.length) = _
    unfold Hand.held
    rw [hnew, hbatch, if_neg Bool.false_ne_true, List.cons_append, queuedSendBytes_send,
      List.tail_cons]
    omega
  | commandDone command rest hbatch htaken =>
    have hreferenced : 1 ≤ w.stream.commandRefs := by
      rw [hbase.references, World.queue, hbatch, List.cons_append, List.length_cons]
      exact Nat.le_add_left _ _
    refine h.shift (hbase.alive (hbase.opened_of_batch hbatch)) rfl rfl rfl rfl ?_ ?_
    · simp [World.popped, World.unreference, violation, hreferenced]
    show w.unsent + queuedSendBytes (rest ++ w.commands) + hand.releasing = _
    unfold Hand.held
    rw [hbatch]
    cases hsend : command.isSend with
    | true => rw [if_pos (htaken hsend), List.tail_cons]
    | false =>
      split
      · rw [List.tail_cons]
      · rw [List.cons_append, queuedSendBytes_other hsend]
  | swap hbatch =>
    refine { h with reserved := fun hlive => (h.reserved hlive).trans ?_ }
    have hnone : hand.held w.batch = [] := by
      unfold Hand.held
      rw [hbatch, List.tail_nil, ite_self]
    rw [hnone]
    show _ = w.unsent + queuedSendBytes (w.commands ++ []) + hand.releasing
    rw [List.nil_append, List.append_nil]
  | handOver item rest length hreadable hout hlength =>
    have hregistered : w.registered := by
      simp only [World.readable, Bool.and_eq_true] at hreadable
      exact hreadable.1.1.1.1.1
    refine h.shift (hbase.alive (hbase.opened hregistered)) rfl rfl rfl rfl rfl ?_
    rw [OutboundMessage.remaining, List.length_drop] at hlength
    have hhanded := unsent_map hout
      (fun st => { st with outbound := { item with offset := item.offset + length } :: rest })
      (fun _ => { item with offset := item.offset + length } :: rest) fun _ => rfl
    show World.unsent _ + queuedSendBytes (hand.held w.batch ++ w.commands) +
      (hand.releasing + length) = _
    rw [unsent_of_outbound hout, outboundBytes_cons]
    refine (congrArg (· + _ + _) (hhanded.trans (outboundBytes_cons _ _))).trans ?_
    show item.bytes.length - (item.offset + length) + _ + _ + _ = _
    omega
  | complete item rest hout hwhole =>
    have hdone := unsent_map hout (fun st => { st with outbound := st.outbound.tail }) List.tail
      fun _ => rfl
    have hsame : World.unsent { w with stream := { w.stream with
        streaming := w.stream.streaming.map fun st => { st with outbound := st.outbound.tail } } } =
        w.unsent := by
      rw [hdone, unsent_of_outbound hout, outboundBytes_cons, hwhole, Nat.sub_self, Nat.zero_add]
      rfl
    refine { h with reserved := fun hlive => ?_ }
    exact (h.reserved hlive).trans (congrArg (· + _ + _) hsame.symm)
  | destroy hretiring hreleased hclosed hcontrol hreferences =>
    have hlive := howned.live hretiring
    refine ⟨fun hlive' => ?_, fun _ =>
      ⟨Nat.sub_self _, hreleased⟩, ?_, h.unreserve_gauge le_rfl, ?_⟩
    · exact absurd hlive' (Nat.succ_ne_zero _)
    · exact (Nat.sub_le _ _).trans h.bounded
    · show (w.unreserve _).violations ++ violation _ _ = []
      rw [h.unreserve_sound le_rfl, violation, if_pos ⟨hclosed, hreferences, hlive⟩]
      rfl
  | _ => exact { h with }

end Accounting

theorem accounted_invariant (others : ℕ) :
    Invariant fun hand w => w.Owned hand ∧ w.Accounted others hand where
  move hmove hbase h := ⟨hmove.owned hbase h.1, hmove.accounted hbase h.1 h.2⟩
  accept := by
    intro w handler requestCompression hready hbase ⟨howned, h⟩
    refine ⟨⟨howned.rested, howned.destroyed⟩, { h with reserved := fun hlive => ?_ }⟩
    have hunsent : w.unsent = 0 := by
      unfold World.unsent World.outbound
      rw [hready.unstarted]
      rfl
    exact (h.reserved hlive).trans (congrArg (· + _ + _) hunsent)
  marked _ h := ⟨{ h.1 with }, { h.2 with }⟩

theorem World.IsRequest.owned (hw : w.IsRequest) : w.Owned {} ∧ w.Accounted w.gauge {} := by
  rw [hw]
  exact ⟨⟨nofun, rfl⟩, fun _ => rfl, nofun, Nat.zero_le _, rfl, rfl⟩

/-- The references to a stream, its life and the operations on them, in every state of a call. -/
theorem stream_ownership {w : World} (hw : w.IsRequest) (events : List Event) :
    ∀ s ∈ w.states events,
      s.stream.commandRefs = s.commands.length + s.batch.length ∧
      s.destroyed = (if s.registered then 0 else 1) ∧
      (s.destroyed ≠ 0 → s.stream.transportClosed ∧ s.stream.commandRefs = 0) ∧
      s.violations = [] := by
  intro s hs
  obtain ⟨hbase, howned, haccounted⟩ := (accounted_invariant w.gauge).states hw events hw.owned s hs
  have hclosed : s.destroyed ≠ 0 → s.stream.transportClosed := fun hgone => by
    by_contra hopen
    exact hgone (hbase.alive (by simpa using hopen))
  refine ⟨?_, ?_, fun hgone => ⟨hclosed hgone, ?_⟩, haccounted.sound⟩
  · rw [hbase.references, World.queue, List.length_append, Nat.add_comm]
  · simpa using howned.destroyed
  · rw [hbase.references, World.queue, hbase.idle (hclosed hgone),
      howned.rested (hclosed hgone) rfl]
    rfl

/-- A call that sends a message and is closed while half of it was handed over. -/
def halfSent : List Event :=
  [.start 0 {}, .app (.sendBegin .borrowed [7] .identity), .app (.sendCommit 0), .commands, .read 3,
    .streamClose false]

theorem stream_ownership_halfSent : plainRequest.IsRequest ∧
    (∀ s ∈ plainRequest.states halfSent, s.stream.commandRefs = s.commands.length + s.batch.length ∧
      s.destroyed = (if s.registered then 0 else 1) ∧
      (s.destroyed ≠ 0 → s.stream.transportClosed ∧ s.stream.commandRefs = 0) ∧
      s.violations = []) ∧
    (plainRequest.states halfSent).map (·.stream.commandRefs) = [0, 0, 0, 1, 1, 0, 0, 0, 0] ∧
    (plainRequest.states halfSent).map (·.destroyed) = [0, 0, 0, 0, 0, 0, 0, 0, 1] :=
  ⟨plainRequest_isRequest, stream_ownership plainRequest_isRequest halfSent, by decide +kernel,
    by decide +kernel⟩

/-! ## A reactor and its streams -/

/-- The streams that a reactor has had, and the gauge that they share. -/
structure ReactorStreams where
  streams : List World := []
  gauge : ℕ := 0

inductive StreamsEvent where
  | request (w : World)
  | stream (index : ℕ) (event : Event)

/-- A request comes in, or something happens to one of the streams.  What other threads do to other
streams meanwhile adds to the gauge and takes from it what it would before or after. -/
def ReactorStreams.step (r : ReactorStreams) : StreamsEvent → ReactorStreams
  | .request w => { r with streams := r.streams ++ [w.asRequest] }
  | .stream index event =>
    match r.streams[index]? with
    | none => r
    | some w =>
      let w' := Server.step { w with gauge := r.gauge } event
      { streams := r.streams.set index w', gauge := w'.gauge }

/-- What all streams of a reactor have reserved; nothing is reserved by one that was destroyed. -/
def reservedBytes (streams : List World) : ℕ :=
  (streams.map (·.stream.outboundReservedBytes)).sum

/-- The bytes reserved by the streams other than the one at `index`. -/
def otherBytes (streams : List World) (index : ℕ) : ℕ :=
  reservedBytes (streams.take index) + reservedBytes (streams.drop (index + 1))

theorem reservedBytes_set {index : ℕ} (w : World) (hindex : index < streams.length) :
    reservedBytes (streams.set index w) =
      otherBytes streams index + w.stream.outboundReservedBytes := by
  unfold otherBytes reservedBytes
  rw [List.set_eq_take_append_cons_drop, if_pos hindex]
  simp only [List.map_append, List.map_cons, List.sum_append, List.sum_cons]
  omega

structure ReactorStreams.Accounted (r : ReactorStreams) : Prop where
  streams : ∀ s ∈ r.streams, s.Rests ∧ s.Owned {} ∧ ∃ others, s.Accounted others {}
  gauge : r.gauge = reservedBytes r.streams

theorem ReactorStreams.Accounted.step (h : r.Accounted) (event : StreamsEvent) :
    (r.step event).Accounted := by
  cases event with
  | request w =>
    have hw : w.asRequest.IsRequest := rfl
    refine ⟨List.forall_mem_append.mpr ⟨h.streams, List.forall_mem_singleton.mpr ?_⟩, ?_⟩
    · exact ⟨hw.rests, hw.owned.1, _, hw.owned.2⟩
    · show r.gauge = reservedBytes (r.streams ++ [w.asRequest])
      rw [h.gauge, reservedBytes, reservedBytes, List.map_append, List.sum_append]
      rfl
  | stream index event =>
    simp only [ReactorStreams.step]
    split
    · exact h
    · rename_i w hw
      obtain ⟨hindex, hw⟩ := List.getElem?_eq_some_iff.mp hw
      obtain ⟨hrests, howned, others, haccounted⟩ := h.streams w (hw ▸ List.getElem_mem hindex)
      have hgauge : r.gauge = otherBytes r.streams index + w.stream.outboundReservedBytes := by
        rw [← reservedBytes_set w hindex, ← hw, List.set_getElem_self, h.gauge]
      have hrests' : World.Rests { w with gauge := r.gauge } :=
        { hrests with base := { hrests.base with } }
      have hstart : World.Owned {} { w with gauge := r.gauge } ∧
          World.Accounted (otherBytes r.streams index) {} { w with gauge := r.gauge } :=
        ⟨{ howned with }, { haccounted with gauge := hgauge }⟩
      obtain ⟨hrests₁, howned₁, haccounted₁⟩ :=
        (accounted_invariant (otherBytes r.streams index)).step event hrests' hstart
      refine ⟨fun s hs => ?_, ?_⟩
      · rcases List.mem_or_eq_of_mem_set hs with hs | rfl
        · exact h.streams s hs
        · exact ⟨hrests₁, howned₁, _, haccounted₁⟩
      · rw [reservedBytes_set _ hindex]
        exact haccounted₁.gauge

theorem ReactorStreams.Accounted.run (events : List StreamsEvent) :
    (Run.final ReactorStreams.step {} events).Accounted :=
  Run.invariant_always (fun _ event h => h.step event) events ⟨by simp, rfl⟩

def ReactorStreams.live (r : ReactorStreams) : List World := r.streams.filter fun s =>
    s.destroyed = 0

theorem reservedBytes_filter
    (hgone : ∀ s ∈ streams, s.destroyed ≠ 0 → s.stream.outboundReservedBytes = 0) :
    reservedBytes (streams.filter fun s => s.destroyed = 0) = reservedBytes streams := by
  induction streams with
  | nil => rfl
  | cons s rest ih =>
    have hrest := ih fun s hs => hgone s (List.mem_cons_of_mem _ hs)
    by_cases hlive : s.destroyed = 0
    · rw [List.filter_cons_of_pos (by simpa using hlive)]
      exact congrArg (s.stream.outboundReservedBytes + ·) hrest
    · rw [List.filter_cons_of_neg (by simpa using hlive), hrest]
      have hnone := hgone s List.mem_cons_self hlive
      exact (Nat.zero_add _).symm.trans (congrArg (· + _) hnone.symm)

theorem ReactorStreams.Accounted.live (h : r.Accounted) :
    reservedBytes r.live = reservedBytes r.streams := by
  refine reservedBytes_filter fun s hs hgone => ?_
  obtain ⟨_, _, others, haccounted⟩ := h.streams s hs
  exact (haccounted.gone hgone).1

/-! ## A send that fails -/

def AppAction.isSend : AppAction → Bool
  | .sendBegin _ _ _ => true
  | .sendCommit _ => true
  | _ => false

/-- What a stream has reserved, in every state of every call; the gauge of a reactor, in every state
of every run; and a send that fails. -/
theorem outbound_accounting :
    (∀ {w : World}, w.IsRequest → ∀ events, ∀ s ∈ w.states events,
      (s.destroyed = 0 → s.stream.outboundReservedBytes =
        s.unsent + queuedSendBytes (s.batch ++ s.commands)) ∧
      s.stream.outboundReservedBytes ≤ s.limits.maxOutboundBufferSize ∧ s.violations = []) ∧
    (∀ events, (Run.final ReactorStreams.step {} events).gauge =
        reservedBytes (Run.final ReactorStreams.step {} events).live ∧
      ∀ s ∈ (Run.final ReactorStreams.step {} events).streams, s.violations = []) ∧
    (∀ action : AppAction, action.isSend → ∀ w : World, wp (appAction action) (fun _ _ => True)
        (fun _ w' => w'.stream.outboundReservedBytes = w.stream.outboundReservedBytes ∧
          w'.gauge = w.gauge) w) := by
  refine ⟨fun hw events s hs => ?_, fun events => ?_, fun action _ w => wp_mono
    (appAction_moves action) (fun _ _ _ => trivial) fun _ _ h => h.1.same⟩
  · obtain ⟨_, _, h⟩ := (accounted_invariant _).states hw events hw.owned s hs
    exact ⟨fun hlive => h.reserved hlive, h.bounded, h.sound⟩
  · have h := ReactorStreams.Accounted.run events
    refine ⟨h.gauge.trans h.live.symm, fun s hs => ?_⟩
    obtain ⟨_, _, others, haccounted⟩ := h.streams s hs
    exact haccounted.sound

theorem outbound_accounting_halfSent : plainRequest.IsRequest ∧
    (∀ s ∈ plainRequest.states halfSent, (s.destroyed = 0 → s.stream.outboundReservedBytes =
        s.unsent + queuedSendBytes (s.batch ++ s.commands)) ∧
      s.stream.outboundReservedBytes ≤ s.limits.maxOutboundBufferSize ∧ s.violations = []) ∧
    (plainRequest.states halfSent).map (·.stream.outboundReservedBytes) =
      [0, 0, 0, 6, 6, 6, 6, 3, 0] ∧
    AppAction.isSend (.sendCommit 0) ∧
    wp (appAction (.sendCommit 0)) (fun _ _ => True)
      (fun _ w' => w'.stream.outboundReservedBytes = 0 ∧ w'.gauge = 0) plainRequest :=
  ⟨plainRequest_isRequest, outbound_accounting.1 plainRequest_isRequest halfSent, by decide +kernel,
    rfl, outbound_accounting.2.2 (.sendCommit 0) rfl plainRequest⟩

end GrpcLite.Server
