import GrpcLite.Client.Steps

/-!
# The sending side of a client stream

Frames go from the application through the outbound queue to nghttp2, which takes them in pieces of
any size.  When the queue is empty the data provider is deferred, and a later send has to wake the
loop.
-/

namespace GrpcLite.Client

open Prog

variable {w w' : World}

/-- What has been accepted is what nghttp2 has taken and what the queue still has of it. -/
structure World.Outbound (w : World) : Prop where
  produced : w.log.accepted.flatten =
    w.log.produced ++ (w.stream.outbound.map OutboundMessage.remaining).flatten
  sized : w.stream.outboundBuffered =
    (w.stream.outbound.map fun item => item.frameBytes.length).sum
  bounded : w.stream.outboundBuffered ≤ w.stream.limits.maxOutboundBufferSize
  closed : w.stream.sendOpen = false → w.stream.transportClosed = false → w.log.sendClosed
  ended : w.log.sendClosed → w.stream.sendOpen = false
  eof : w.stream.providerEof →
    w.stream.outbound = [] ∧ w.stream.sendOpen = false ∧ w.log.sendClosed
  deferred : w.stream.providerDeferred → w.stream.streamId.isSome
  blocked : w.stream.backpressureRequested → w.stream.outbound ≠ []

namespace World.Outbound

theorem queued (h : w.Outbound) (hfull : 0 < w.stream.outboundBuffered) :
    w.stream.outbound ≠ [] := by
  intro hempty
  have hsized := h.sized
  rw [hempty] at hsized
  simp only [List.map_nil, List.sum_nil] at hsized
  omega

theorem send (h : w.Outbound) (encoded : Bytes) (hsending : w.stream.sendOpen)
    (hfits : encoded.length ≤ w.stream.limits.maxOutboundBufferSize - w.stream.outboundBuffered) :
    World.Outbound { w with
      stream := { w.stream with
        outbound := w.stream.outbound ++ [{ frameBytes := encoded }]
        outboundBuffered := w.stream.outboundBuffered + encoded.length }
      log := { w.log with accepted := w.log.accepted ++ [encoded] } } where
  produced := by
    show (w.log.accepted ++ [encoded]).flatten = _
    simp [h.produced, OutboundMessage.remaining]
  sized := by
    show w.stream.outboundBuffered + encoded.length = _
    simp [h.sized]
  bounded := by
    have hbounded := h.bounded
    show w.stream.outboundBuffered + encoded.length ≤ w.stream.limits.maxOutboundBufferSize
    omega
  closed := h.closed
  ended := h.ended
  eof heof := by cases (h.eof heof).2.1.symm.trans hsending
  deferred := h.deferred
  blocked _ := by simp

theorem app (h : w.Outbound) (hmove : AppMove w w') : w'.Outbound := by
  cases hmove with
  | blocked hfull => exact { h with blocked := fun _ => h.queued hfull }
  | send index encoded compression hsend hopen hsending hfits =>
    exact { h.send encoded hsending hfits with }
  | closeSend =>
    exact { h with
      closed := fun _ _ => rfl
      ended := fun _ => rfl
      eof := fun heof => ⟨(h.eof heof).1, rfl, rfl⟩ }
  | _ => exact { h with }

theorem apps (hmoves : AppMoves w w') (h : w.Outbound) : w'.Outbound :=
  AppClosed.moves (fun _ _ hmove h => app h hmove) hmoves h

theorem remaining_take (item : OutboundMessage) (length : ℕ) :
    item.remaining.take length ++ OutboundMessage.remaining
      { item with offset := item.offset + (item.remaining.take length).length } =
        item.remaining := by
  have hdrop : OutboundMessage.remaining
      { item with offset := item.offset + (item.remaining.take length).length } =
        item.remaining.drop (item.remaining.take length).length := by
    simp [OutboundMessage.remaining]
  rw [hdrop, List.length_take, List.take_eq_take_min]
  exact List.take_append_drop _ _

variable {item : OutboundMessage} {rest : List OutboundMessage}

theorem partly (h : w.Outbound) (length : ℕ) (hqueue : w.stream.outbound = item :: rest) :
    World.Outbound { w with
      stream := { w.stream with outbound :=
        { item with offset := item.offset + (item.remaining.take length).length } :: rest }
      log := { w.log with produced := w.log.produced ++ item.remaining.take length } } where
  produced := by
    have hproduced := h.produced
    rw [hqueue, List.map_cons, List.flatten_cons, ← remaining_take item length] at hproduced
    simpa only [List.map_cons, List.flatten_cons, List.append_assoc] using hproduced
  sized := by
    have hsized := h.sized
    rw [hqueue] at hsized
    exact hsized
  bounded := h.bounded
  closed := h.closed
  ended := h.ended
  eof heof := by cases hqueue.symm.trans (h.eof heof).1
  deferred := h.deferred
  blocked _ := nofun

theorem wholly (h : w.Outbound) (length : ℕ) (hopened : w.stream.transportClosed = false)
    (hqueue : w.stream.outbound = item :: rest)
    (hwhole : item.offset + (item.remaining.take length).length = item.frameBytes.length) :
    World.Outbound { w with
      stream := { w.stream with
        outbound := rest
        outboundBuffered := w.stream.outboundBuffered - item.frameBytes.length
        providerEof := w.stream.providerEof || (rest.isEmpty && !w.stream.sendOpen)
        backpressureRequested := false }
      log := { w.log with produced := w.log.produced ++ item.remaining.take length } } where
  produced := by
    have htaken := remaining_take item length
    have hnone : OutboundMessage.remaining { item with
        offset := item.offset + (item.remaining.take length).length } = [] := by
      rw [hwhole]
      exact List.drop_length
    have hproduced := h.produced
    rw [hqueue, List.map_cons, List.flatten_cons, ← htaken, hnone, List.append_nil,
      ← List.append_assoc] at hproduced
    exact hproduced
  sized := by
    have hsized := h.sized
    rw [hqueue, List.map_cons, List.sum_cons] at hsized
    exact Nat.sub_eq_of_eq_add' hsized
  bounded := Nat.le_trans (Nat.sub_le _ _) h.bounded
  closed := h.closed
  ended := h.ended
  eof heof := by
    rcases Bool.or_eq_true_iff.mp heof with heof | hlast
    · cases hqueue.symm.trans (h.eof heof).1
    · rw [Bool.and_eq_true, List.isEmpty_iff, Bool.not_eq_true'] at hlast
      exact ⟨hlast.1, hlast.2, h.closed hlast.2 hopened⟩
  deferred := h.deferred
  blocked := nofun

theorem move (hmove : Move w w') (h : w.Outbound) : w'.Outbound := by
  cases hmove with
  | app hmove => exact h.app hmove
  | terminate hlive happ => exact apps happ { h with }
  | terminateCall outcome hlive happ => exact { apps happ { h with } with }
  | submit => exact { h with deferred := fun _ => rfl }
  | close errorCode hmapped happ =>
    have hclosed := apps happ { h with closed := fun _ hopened => Bool.noConfusion hopened }
    refine { hclosed with
      closed := fun _ hopened => ?_
      ended := fun _ => rfl
      eof := fun heof => ⟨(hclosed.eof heof).1, rfl, (hclosed.eof heof).2.2⟩ }
    cases (congrArg Control.closed happ.control).symm.trans hopened
  | cut => exact { h with closed := fun _ hopened => Bool.noConfusion hopened }
  | deferred hopened hsubmitted => exact { h with deferred := fun _ => hsubmitted }
  | eof hopened hempty hended =>
    exact { h with eof := fun _ => ⟨hempty, hended, h.closed hended hopened⟩ }
  | partly item rest length _ hqueue => exact h.partly length hqueue
  | wholly item rest length _ hopened hqueue hwhole => exact h.wholly length hopened hqueue hwhole
  | commandsTaken =>
    exact { h with deferred := fun hset => h.deferred (Bool.and_eq_true_iff.mp hset).1 }
  | _ => exact { h with }

end World.Outbound

theorem outbound_invariant : Invariant World.Outbound where
  awake h := { h with }
  move hmove _ h := by
    cases hmove with
    | outer hmove => exact h.move hmove
    | _ => exact { h with }

/-! ## Wakes -/

/-- A deferred provider for which there is something to send is on its way to be resumed. -/
def World.Served (w : World) : Prop :=
  w.registered → w.stream.loopOwned → w.stream.rstSubmitted = false →
    w.stream.transportClosed = false → w.stream.providerDeferred →
    w.stream.outbound ≠ [] ∨ w.stream.sendOpen = false → w.stream.wakeQueued

theorem World.Served.app (h : w.Served) (hmove : AppMove w w') : w'.Served := by
  have hlisted : w.registered → w.stream.loopOwned →
      (w.stream.wakeQueued || (w.stream.loopOwned && w.registered)) := by
    intro hregistered howned
    simp [hregistered, howned]
  cases hmove with
  | send | closeSend | cancel | resume | release =>
    exact fun hregistered howned _ _ _ _ => hlisted hregistered howned
  | _ => exact h

theorem AppMoves.served (hmoves : AppMoves w w') (h : w.Served) : w'.Served :=
  AppClosed.moves (fun _ _ hmove h => World.Served.app h hmove) hmoves h

/-- Once the loop has read the commands, only a provider with nothing to send is deferred. -/
theorem World.taken_served (w : World) : w.taken.Served := by
  intro _ _ _ _ hdeferred hwork
  obtain ⟨hset, hidle⟩ := Bool.and_eq_true_iff.mp hdeferred
  have hempty : w.stream.outbound = [] ∧ w.stream.sendOpen = true := by
    simpa [hset, List.isEmpty_iff] using hidle
  rcases hwork with hqueued | hended
  · exact absurd hempty.1 hqueued
  · cases hended.symm.trans hempty.2

theorem Move.served (hmove : Move w w') (h : w.Served) : w'.Served := by
  cases hmove with
  | app hmove => exact h.app hmove
  | terminate hlive happ => exact happ.served h
  | terminateCall outcome hlive happ => exact happ.served h
  | loopRelease => exact nofun
  | close errorCode hmapped happ =>
    intro _ _ _ hopened
    cases (congrArg Control.closed happ.control).symm.trans hopened
  | cut => exact fun _ _ _ hopened => Bool.noConfusion hopened
  | reset => exact fun _ _ hset => Bool.noConfusion hset
  | deferred hopened hsubmitted hempty hsending =>
    intro _ _ _ _ _ hwork
    rcases hwork with hqueued | hended
    · exact absurd hempty hqueued
    · cases hended.symm.trans hsending
  | partly item rest length _ hqueue | wholly item rest length _ _ hqueue =>
    intro hregistered howned hrst hopened hdeferred _
    exact h hregistered howned hrst hopened hdeferred (.inl (by simp [hqueue]))
  | commandsTaken => exact w.taken_served
  | _ => exact h

theorem AnyMoves.served (hmoves : AnyMoves w w') (h : w.Served) : w'.Served := by
  induction hmoves with
  | refl => exact h
  | tail _ hmove ih =>
    cases hmove with
    | outer hmove => exact hmove.served ih
    | _ => exact ih

theorem Moves.served (hmoves : Moves w w') (h : w.Served) : w'.Served := hmoves.any.served h

theorem processClientStreamCommands_served (h : w.Stable) (howned : w.stream.loopOwned)
    (hsubmitted : w.stream.streamId.isSome) :
    wp (tryCatch processClientStreamCommands fun _ =>
      handleTransportFailure "stream command failed")
      (fun _ => World.Served) never w := by
  rw [wp_tryCatch]
  refine processClientStreamCommands_wp (at_closed w w.control) (.self h.base) howned
    fun w₁ h₁ => ?_
  have htaken : AtAny w₁.taken w.control w₁.taken := ⟨.refl, h₁.control, { h₁.base with }⟩
  refine wp_mono (obeyCommands_any htaken howned (fun hopened => ?_) fun hclosed =>
    (h.settled.waiting hclosed howned).2) (fun _ w₂ h₂ => ?_) fun _ w₂ h₂ => ?_
  · exact h.settled.forcible ((h.settled.kept howned hsubmitted).resolve_right (by simp [hopened]))
  · obtain ⟨c', _, hat⟩ := h₂
    exact hat.moves.served w₁.taken_served
  · obtain ⟨c', hc', hat⟩ := h₂
    exact wp_imp (handleTransportFailure_at hat.start (h.settled.listed.interrupted hc'))
      fun _ w₃ h₃ => h₃.moves.served (hat.moves.served w₁.taken_served)

theorem wake_served (now id : ℕ) (h : w.Stable) (hout : w.Outbound) (hw : w.Served) :
    wp (processStreamWake now id) (fun _ => World.Served) never w := by
  refine processStreamWake_wp now id h.base h.settled hw (fun expired w' _ hnew h' => ?_)
    fun w₁ h₁ => processClientStreamCommands_served ⟨h₁.base, h₁.settled⟩ h₁.owned h₁.submitted
  -- nobody has asked a new stream for data yet
  have hidle : w.awake.Served := fun _ _ _ _ hdeferred =>
    absurd (hout.deferred hdeferred) (by simp [show w.stream.streamId = none from hnew])
  exact h'.moves.served hidle

structure World.Sends (w : World) : Prop extends w.Stable where
  outbound : w.Outbound
  served : w.Served

theorem World.Sends.next (h : w.Sends) (event : Event) : (step w event).Sends := by
  refine { h.toStable.step event with
    outbound := outbound_invariant.step h.toStable event h.outbound, served := ?_ }
  cases hreceiving : event.isReceiving with
  | false =>
    obtain ⟨_, _, hat⟩ := step_outer event hreceiving h.base h.settled
    exact hat.moves.served h.served
  | true =>
    refine exec_of_wp (wp_ends (?_ : wp (handleEvent event) (fun _ => World.Served)
      never w) fun _ _ h' => h')
    cases event with
    | wake now id => exact wake_served now id h.toStable h.outbound h.served
    | data bytes =>
      exact wp_imp (data_stepped bytes h.base h.settled)
        fun _ _ ⟨_, _, hat⟩ => hat.moves.served h.served
    | _ => exact Bool.noConfusion hreceiving

theorem World.IsOpened.sends (h : w.IsOpened) : w.Sends := by
  refine { h.stable with outbound := ?_, served := ?_ }
  · have hstream := h.stream
    have hlog := h.log
    exact
      { produced := by rw [hstream, hlog]; rfl
        sized := by rw [hstream]; rfl
        bounded := by rw [hstream]; exact Nat.zero_le _
        closed := by rw [hstream]; exact nofun
        ended := by rw [hlog]; exact nofun
        eof := by rw [hstream]; exact nofun
        deferred := by rw [hstream]; exact nofun
        blocked := by rw [hstream]; exact nofun }
  · intro _ _ _ _ hdeferred
    rw [h.stream] at hdeferred
    exact nomatch hdeferred

/-! ## Runs -/

def World.SendsNoMore (accepted : List Bytes) (w : World) : Prop :=
  w.log.accepted = accepted ∧
    (w.stream.sendOpen = false ∨ w.stream.cancelRequested ∨ w.stream.terminal)

variable {accepted : List Bytes}

theorem World.SendsNoMore.app (h : w.SendsNoMore accepted) (hmove : AppMove w w') :
    w'.SendsNoMore accepted := by
  obtain ⟨haccepted, hover⟩ := h
  cases hmove with
  | send index encoded compression hsend hopen hsending =>
    rcases hover with hclosed | hcancelled | hterminal
    · cases hclosed.symm.trans hsending
    · cases hopen.uncancelled.symm.trans hcancelled
    · cases hopen.unended.symm.trans hterminal
  | closeSend => exact ⟨haccepted, .inl rfl⟩
  | cancel | release => exact ⟨haccepted, .inr (.inl rfl)⟩
  | _ => exact ⟨haccepted, hover⟩

theorem AppMoves.sendsNoMore (hmoves : AppMoves w w') (h : w.SendsNoMore accepted) :
    w'.SendsNoMore accepted :=
  AppClosed.moves (fun _ _ hmove h => World.SendsNoMore.app h hmove) hmoves h

theorem sendsNoMore_invariant (accepted : List Bytes) : Invariant (World.SendsNoMore accepted) where
  awake h := h
  move hmove _ h := by
    cases hmove with
    | outer hmove =>
      cases hmove with
      | app hmove => exact h.app hmove
      | terminate hlive happ => exact happ.sendsNoMore ⟨h.1, .inr (.inr rfl)⟩
      | terminateCall outcome hlive happ =>
        have hended :=
          happ.sendsNoMore (show World.SendsNoMore accepted _ from ⟨h.1, .inr (.inr rfl)⟩)
        exact hended
      | close errorCode hmapped happ => exact ⟨(happ.sendsNoMore h).1, .inl rfl⟩
      | _ => exact h
    | _ => exact h

/-- The sending side in every state of every run: nghttp2 has taken a prefix of the accepted frames,
it is told of the end only behind all of them and after `closeSend`, the queue is within its limit,
and a deferred provider with something to send is on the wake list. -/
structure World.SendsInOrder (w : World) : Prop where
  produced : w.log.accepted.flatten =
    w.log.produced ++ (w.stream.outbound.map OutboundMessage.remaining).flatten
  eof : w.stream.providerEof → w.log.sendClosed ∧ w.log.produced = w.log.accepted.flatten
  sized : w.stream.outboundBuffered =
    (w.stream.outbound.map fun item => item.frameBytes.length).sum
  bounded : w.stream.outboundBuffered ≤ w.stream.limits.maxOutboundBufferSize
  resumed : w.stream.terminal = false → w.stream.rstSubmitted = false →
    w.stream.transportClosed = false → w.stream.providerDeferred →
    w.stream.outbound ≠ [] ∨ w.stream.sendOpen = false → w.stream.wakeQueued

theorem World.Sends.inOrder (h : w.Sends) : w.SendsInOrder where
  produced := h.outbound.produced
  eof heof := by
    obtain ⟨hempty, _, hclosed⟩ := h.outbound.eof heof
    have hproduced := h.outbound.produced
    rw [hempty, List.map_nil, List.flatten_nil, List.append_nil] at hproduced
    exact ⟨hclosed, hproduced.symm⟩
  sized := h.outbound.sized
  bounded := h.outbound.bounded
  resumed hlive := by
    have howned : w.control.loopOwned := by
      by_contra hdisowned
      cases (h.settled.gone (eq_false_of_ne_true hdisowned)).1.symm.trans hlive
    exact h.served (h.settled.owned.trans howned) howned

/-- What is sent on a client stream reaches nghttp2 in order and without loss, and nothing is
accepted any more once the stream was closed for sending, cancelled or ended. -/
theorem sends_in_order (hw : w.IsOpened) (before after : List Event) :
    (Run.final step w before).SendsInOrder ∧
      ((Run.final step w before).log.sendClosed ∨ (Run.final step w before).stream.cancelRequested ∨
          (Run.final step w before).stream.terminal →
        (Run.final step w (before ++ after)).log.accepted =
          (Run.final step w before).log.accepted) := by
  have hsends : (Run.final step w before).Sends :=
    Run.invariant_always (fun _ event h => h.next event) before hw.sends
  refine ⟨hsends.inOrder, fun hover => ?_⟩
  rw [Run.final_append]
  exact ((sendsNoMore_invariant _).run hsends.toStable after
    ⟨rfl, hover.imp_left hsends.outbound.ended⟩).1

def smallWorld : World where
  stream := .init {} { maxMessageSize := 2, maxOutboundBufferSize := 14 } .identity none
  gzip := { compress := id, decompress := fun payload _ => .ok payload }

/-- A message is sent while the provider is deferred, taken in two pieces, and the stream closed for
sending in between. -/
def sentInPieces : List Event :=
  [.wake 0 1, .read 10, .app (.sendBegin [1, 2] .identity), .app (.sendCommit 0), .wake 0 1,
    .read 3, .app .closeSend, .read 100]

theorem sends_in_order_smallWorld :
    (Run.final step smallWorld sentInPieces).stream.providerEof ∧
      (Run.final step smallWorld sentInPieces).log.accepted.flatten = [0, 0, 0, 0, 2, 1, 2] ∧
      (Run.final step smallWorld (sentInPieces ++ [.app (.sendBegin [3] .identity)])).log.accepted =
        (Run.final step smallWorld sentInPieces).log.accepted := by
  have h := sends_in_order (w := smallWorld) ⟨rfl, rfl, rfl, rfl, rfl, rfl, rfl⟩ sentInPieces
    [.app (.sendBegin [3] .identity)]
  have heof : (Run.final step smallWorld sentInPieces).stream.providerEof := by decide +kernel
  have hproduced : (Run.final step smallWorld sentInPieces).log.produced =
      [0, 0, 0, 0, 2, 1, 2] := by decide +kernel
  obtain ⟨hclosed, hall⟩ := h.1.eof heof
  exact ⟨heof, hall.symm.trans hproduced, h.2 (.inl hclosed)⟩

/-- A writer that waits for room on a live stream waits for frames that are queued, and nghttp2 is
asked for them: it reads the stream, or the stream is on the wake list. -/
theorem blocked_writer_has_queued_frames (hw : w.IsOpened) (events : List Event) :
    let w' := Run.final step w events
    w'.stream.backpressureRequested → w'.stream.terminal = false → w'.stream.rstSubmitted = false →
      w'.stream.transportClosed = false →
      w'.stream.outbound ≠ [] ∧ (w'.stream.providerDeferred → w'.stream.wakeQueued) := by
  intro w' hblocked hlive hunreset hopen
  have hsends : w'.Sends := Run.invariant_always (fun _ event h => h.next event) events hw.sends
  have hqueued : w'.stream.outbound ≠ [] := hsends.outbound.blocked hblocked
  exact ⟨hqueued, fun hdeferred =>
    hsends.inOrder.resumed hlive hunreset hopen hdeferred (.inl hqueued)⟩

def threeSends : List Event := .wake 0 1 :: .read 10 ::
  (List.replicate 3 [Event.app (.sendBegin [1, 2] .identity), .app (.sendCommit 0)]).flatten

theorem blocked_writer_has_queued_frames_smallWorld :
    (Run.final step smallWorld threeSends).stream.providerDeferred ∧
      (Run.final step smallWorld threeSends).stream.wakeQueued := by
  have hdeferred : (Run.final step smallWorld threeSends).stream.providerDeferred := by
    decide +kernel
  have h := blocked_writer_has_queued_frames (w := smallWorld) ⟨rfl, rfl, rfl, rfl, rfl, rfl, rfl⟩
    threeSends (by decide +kernel) (by decide +kernel) (by decide +kernel) (by decide +kernel)
  exact ⟨hdeferred, h.2 hdeferred⟩

end GrpcLite.Client
