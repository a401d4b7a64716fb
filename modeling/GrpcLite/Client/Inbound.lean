import GrpcLite.Wire.Framing
import GrpcLite.Client.Outcome

/-!
# What a client stream hands on

The messages given to `on_message` against the bytes received.  A message goes to the application
as soon as it is decoded, or through the queue while the application has paused; the invariant
relates the decoder, the queue and the callbacks so far.
-/

namespace GrpcLite.Client

open Prog

variable {w w' : World} {gapless : Prop}

def World.queued (w : World) : List Bytes := w.stream.inbound.map InboundMessage.payload

/-- The buffers of the receiving side, and, if the decoder has been fed without gaps, the messages
decoded against the bytes received, of which it may have refused the last. -/
structure World.Parsed (gapless : Prop) (w : World) : Prop where
  offset : w.stream.decoder.offset ≤ w.stream.decoder.buffer.length
  limit : w.stream.decoder.maxMessageSize = w.stream.limits.maxMessageSize
  parsed : gapless → ∃ frames unfed,
    List.Forall₂ (Frame.IsFrame w.gzip w.stream.decoder.maxMessageSize) frames w.log.decoded ∧
    w.log.received = frames.flatten ++ w.stream.decoder.available ++ unfed ∧
    (w.log.refused = false → w.stream.responseHeadersTooLarge = false → unfed = [])
  sized : w.stream.inboundBuffered = (w.stream.inbound.map InboundMessage.bufferedSize).sum
  bounded : w.stream.inboundBuffered ≤ w.stream.limits.maxInboundBufferSize
  released : w.stream.appReleased → w.stream.cancelRequested

/-- The decoded messages are delivered in order, and while the application is not paused nothing
waits. -/
structure World.Framed (gapless : Prop) (w : World) : Prop extends w.Parsed gapless where
  ordered : w.stream.cancelRequested = false → w.log.delivered <+: w.log.decoded
  direct : w.stream.terminal = false → w.stream.cancelRequested = false →
    w.stream.receivePaused = false → w.stream.inbound = [] ∧ w.log.delivered = w.log.decoded
  told : w.stream.cancelRequested = false ∨ .cancel ∉ w.log.overtaking → ∀ outcome trailing,
    .callback (.terminal outcome trailing) ∈ w.log.marks → outcome.fromTrailers →
    w.log.delivered = w.log.decoded

/-- A closed stream with an empty queue has delivered everything, unless a cancel overtook the last
message. -/
structure World.InOrder (gapless : Prop) (w : World) : Prop extends w.Framed gapless where
  done : w.stream.transportClosed → w.stream.streamError = noError → w.stream.terminal = false →
    w.stream.forcedStatus = none → w.stream.receivePaused = false → w.stream.inbound = [] →
    w.stream.appReleased = false → .cancel ∉ w.log.overtaking → w.log.delivered = w.log.decoded

/-- Until an outcome is settled, the decoder has handed on every whole frame, and what has not
been delivered waits in the queue. -/
structure World.Whole (w : World) : Prop where
  starved : w.stream.terminal = false → w.stream.forcedStatus = none → w.stream.decoder.Starved
  complete : w.stream.terminal = false → w.stream.forcedStatus = none →
    w.stream.cancelRequested = false → w.log.delivered ++ w.queued = w.log.decoded

/-! ## Outside the receiving side -/

theorem delivered_ownerMarks (marks : List Mark) (first : Mark) (owned : Bool)
    (hfirst : first.message = none) :
    (marks ++ first :: if owned then [] else [.destroyed]).filterMap Mark.message =
      marks.filterMap Mark.message := by
  have hdestroyed : Mark.message .destroyed = none := rfl
  cases owned <;> simp [hfirst, hdestroyed]

theorem AppMove.delivered (hmove : AppMove w w') : w'.log.delivered = w.log.delivered := by
  cases hmove with
  | release => exact delivered_ownerMarks _ _ _ rfl
  | _ => rfl

theorem World.Framed.remarked (h : w.Framed gapless) {marks : List Mark}
    (hdelivered : marks.filterMap Mark.message = w.log.delivered)
    (htold : ∀ outcome trailing, .callback (.terminal outcome trailing) ∈ marks →
      outcome.fromTrailers → .callback (.terminal outcome trailing) ∈ w.log.marks) :
    World.Framed gapless { w with log := { w.log with marks := marks } } :=
  have hsame : ({ w.log with marks := marks } : Log).delivered = w.log.delivered := hdelivered
  { h with
    ordered := hsame ▸ h.ordered
    direct := hsame ▸ h.direct
    told := fun hquiet outcome trailing hmem htrailers =>
      hsame.trans
        (h.told hquiet outcome trailing (htold outcome trailing hmem htrailers) htrailers) }

theorem World.InOrder.remarked (h : w.InOrder gapless) {marks : List Mark}
    (hdelivered : marks.filterMap Mark.message = w.log.delivered)
    (htold : ∀ outcome trailing, .callback (.terminal outcome trailing) ∈ marks →
      outcome.fromTrailers → .callback (.terminal outcome trailing) ∈ w.log.marks) :
    World.InOrder gapless { w with log := { w.log with marks := marks } } :=
  have hsame : ({ w.log with marks := marks } : Log).delivered = w.log.delivered := hdelivered
  { h.toFramed.remarked hdelivered htold with done := hsame ▸ h.done }

theorem World.Framed.app (h : w.Framed gapless) (hmove : AppMove w w') : w'.Framed gapless := by
  cases hmove with
  | cancel =>
    exact { h with
      released := fun _ => rfl
      ordered := nofun
      direct := fun _ huncancelled => Bool.noConfusion huncancelled
      told := fun hquiet => h.told (hquiet.imp_left fun hnot => Bool.noConfusion hnot) }
  | release inside =>
    have hmarked := h.remarked (delivered_ownerMarks w.log.marks (.released inside)
      w.stream.loopOwned rfl) fun outcome trailing hmem _ => by
        rcases List.mem_append.mp hmem with hmem | hmem
        · exact hmem
        · rcases mem_ownerMarks hmem with heq | heq <;> cases heq
    exact { hmarked with
      released := fun _ => rfl
      ordered := nofun
      direct := fun _ huncancelled => Bool.noConfusion huncancelled
      told := fun hquiet => hmarked.told (hquiet.imp_left fun hnot => Bool.noConfusion hnot) }
  | _ => exact { h with }

theorem World.InOrder.app (h : w.InOrder gapless) (hmove : AppMove w w') : w'.InOrder gapless := by
  have hframed := h.toFramed.app hmove
  cases hmove with
  | release =>
    exact { hframed with done := fun _ _ _ _ _ _ hunreleased => Bool.noConfusion hunreleased }
  | _ => exact { hframed with done := h.done }

theorem World.Whole.remarked (h : w.Whole) {marks : List Mark}
    (hdelivered : marks.filterMap Mark.message = w.log.delivered) :
    World.Whole { w with log := { w.log with marks := marks } } :=
  have hsame : ({ w.log with marks := marks } : Log).delivered = w.log.delivered := hdelivered
  { h with complete := hsame ▸ h.complete }

theorem World.Whole.app (h : w.Whole) (hmove : AppMove w w') : w'.Whole := by
  cases hmove with
  | cancel | release =>
    exact { h with complete := fun _ _ huncancelled => Bool.noConfusion huncancelled }
  | _ => exact { h with }

theorem notice_message {kind : Callback} (hkind : kind.isNotice) :
    Mark.message (.callback kind) = none := by
  cases kind <;> first | rfl | cases hkind

theorem delivered_marked {event : Mark} (hevent : event.message = none) :
    (w.log.marks ++ [event]).filterMap Mark.message = w.log.delivered := by
  simp [Log.delivered, hevent]

theorem World.InOrder.reported (h : w.InOrder gapless) {outcome : Outcome}
    (htrailers : outcome.fromTrailers →
      w.stream.cancelRequested = false ∨ .cancel ∉ w.log.overtaking →
      w.log.delivered = w.log.decoded) :
    (w.marked (.callback (.terminal outcome w.stream.trailingMetadata))).InOrder gapless := by
  have hsame : (w.marked (.callback (.terminal outcome w.stream.trailingMetadata))).log.delivered =
      w.log.delivered := delivered_marked rfl
  exact { h with
    ordered := hsame ▸ h.ordered
    direct := hsame ▸ h.direct
    done := hsame ▸ h.done
    told := fun hquiet other trailing hmem hfrom => by
      rw [hsame]
      rcases List.mem_append.mp hmem with hmem | hmem
      · exact h.told hquiet other trailing hmem hfrom
      · cases List.mem_singleton.mp hmem
        exact htrailers hfrom hquiet }

theorem AppMoves.delivered (h : AppMoves w w') : w'.log.delivered = w.log.delivered :=
  AppClosed.moves (I := fun w' => w'.log.delivered = w.log.delivered)
    (fun _ _ hmove hw => hmove.delivered.trans hw) h rfl

theorem AppMoves.framed (h : AppMoves w w') (hw : w.Framed gapless) : w'.Framed gapless :=
  AppClosed.moves (fun _ _ hmove h => World.Framed.app h hmove) h hw

theorem AppMoves.inOrder (h : AppMoves w w') (hw : w.InOrder gapless) : w'.InOrder gapless :=
  AppClosed.moves (fun _ _ hmove h => World.InOrder.app h hmove) h hw

theorem World.InOrder.ended (h : w.InOrder gapless) :
    World.InOrder gapless { w with stream := { w.stream with terminal := true } } :=
  { h with direct := nofun, done := fun _ _ hlive => Bool.noConfusion hlive }

theorem Move.inOrder (hmove : Move w w') (h : w.InOrder gapless) : w'.InOrder gapless := by
  cases hmove with
  | app hmove => exact h.app hmove
  | notice kind hkind =>
    refine h.remarked (delivered_marked (notice_message hkind)) fun outcome trailing hmem _ => ?_
    rcases List.mem_append.mp hmem with hmem | hmem
    · exact hmem
    · cases List.mem_singleton.mp hmem
      cases hkind
  | terminate hlive happ => exact happ.inOrder h.ended
  | terminateCall outcome hlive happ howned hunreleased hagrees hok hdrained =>
    have hunreleased' : w.stream.appReleased = false := eq_false_of_ne_true fun hset =>
      Bool.noConfusion (hunreleased.symm.trans (happ.released hset))
    refine (happ.inOrder h.ended).reported fun htrailers hquiet => ?_
    obtain ⟨hclosed, hregular, hunforced, _, hunpaused, hempty⟩ := hdrained htrailers
    have hflow := happ.flow
    have hover : _ = w.log.overtaking := congrArg FlowPart.overtaking hflow
    refine happ.delivered.trans (Eq.trans ?_ (congrArg FlowPart.decoded hflow).symm)
    rcases hquiet with huncancelled | hquiet
    · have huncancelled : w.stream.cancelRequested = false := eq_false_of_ne_true fun hset =>
        Bool.noConfusion (huncancelled.symm.trans (happ.cancelled hset))
      exact (h.direct hlive huncancelled hunpaused).2
    · exact h.done hclosed hregular hlive hunforced hunpaused hempty hunreleased'
        fun hmem => hquiet (hover.symm ▸ hmem :)
  | loopRelease =>
    have hmarked :=
      h.remarked (delivered_ownerMarks w.log.marks .loopReleased w.stream.appOwned rfl)
      fun outcome trailing hmem _ => by
        rcases List.mem_append.mp hmem with hmem | hmem
        · exact hmem
        · rcases mem_ownerMarks hmem with heq | heq <;> cases heq
    exact { hmarked with }
  | close errorCode hmapped happ forced expired hforced hcancel =>
    have hflow := happ.flow
    refine { happ.framed { h with } with done := ?_ }
    intro _ _ hlive hunforced hunpaused hempty hunreleased _
    have huncancelled := (hcancel hunforced).resolve_right (by simpa using hunreleased)
    have huncancelled : w.stream.cancelRequested = false := eq_false_of_ne_true fun hset =>
      Bool.noConfusion (huncancelled.symm.trans (happ.cancelled hset))
    have hlive : w.stream.terminal = false :=
      (congrArg Control.terminal happ.control).symm.trans hlive
    have hunpaused : w.stream.receivePaused = false :=
      (congrArg FlowPart.receivePaused hflow).symm.trans hunpaused
    exact happ.delivered.trans ((h.direct hlive huncancelled hunpaused).2.trans
      (congrArg FlowPart.decoded hflow).symm)
  | cut => exact { h with done := fun _ hregular => nomatch hregular }
  | force => exact { h with done := fun _ _ _ hnone => nomatch hnone }
  | tooLarge =>
    refine { h with parsed := fun hgapless => ?_ }
    obtain ⟨frames, unfed, hframes, hreceived, _⟩ := h.parsed hgapless
    exact ⟨frames, unfed, hframes, hreceived, fun _ hset => Bool.noConfusion hset⟩
  | _ => exact { h with }

theorem AppMoves.whole (h : AppMoves w w') (hw : w.Whole) : w'.Whole :=
  AppClosed.moves (fun _ _ hmove h => World.Whole.app h hmove) h hw

theorem Move.whole (hmove : Move w w') (h : w.Whole) : w'.Whole := by
  cases hmove with
  | app hmove => exact h.app hmove
  | notice kind hkind => exact h.remarked (delivered_marked (notice_message hkind))
  | terminate hlive happ =>
    exact happ.whole ⟨fun hlive => Bool.noConfusion hlive, fun hlive => Bool.noConfusion hlive⟩
  | terminateCall outcome hlive happ =>
    have hended :=
      happ.whole ⟨fun hlive => Bool.noConfusion hlive, fun hlive => Bool.noConfusion hlive⟩
    exact hended.remarked (delivered_marked rfl)
  | loopRelease =>
    have hmarked :=
      h.remarked (delivered_ownerMarks w.log.marks .loopReleased w.stream.appOwned rfl)
    exact { hmarked with }
  | close errorCode hmapped happ forced expired hforced =>
    have hclosed := happ.whole { h with }
    have hunforced : forced = none → w.stream.forcedStatus = none := by
      rintro rfl
      rcases hforced with hsame | ⟨hnone, _⟩
      · exact hsame.symm
      · exact hnone
    have hkept := congrArg Control.forced happ.control
    exact
      { starved := fun hlive hnone => hclosed.starved hlive (hkept.trans (hunforced hnone))
        complete := fun hlive hnone => hclosed.complete hlive (hkept.trans (hunforced hnone)) }
  | force => exact ⟨fun _ hnone => (nomatch hnone), fun _ hnone => (nomatch hnone)⟩
  | _ => exact { h with }

theorem Moves.inOrder (h : Moves w w') (hw : w.InOrder gapless) : w'.InOrder gapless := by
  induction h with
  | refl => exact hw
  | tail _ hmove ih => exact hmove.inOrder ih

theorem Moves.whole (h : Moves w w') (hw : w.Whole) : w'.Whole := by
  induction h with
  | refl => exact hw
  | tail _ hmove ih => exact hmove.whole ih

end GrpcLite.Client
