import GrpcLite.Client.Inbound

/-!
# Decoding and the queue

What the loop does on the receiving side of a client stream: it decodes messages until no whole
frame is left and hands each to the application or, while that has paused, to the queue; and it
delivers the queue when the application resumes.
-/

namespace GrpcLite.Client

open Prog

variable {w w' : World} {gapless : Prop}

/-! ## Decoding -/

/-- The loop is at work on the receiving side, and no outcome has been reported from trailers. -/
structure World.Receiving (gapless : Prop) (c : Control) (w : World) : Prop
    extends w.Parsed gapless where
  control : w.control = c
  base : w.Base
  untold : ∀ outcome trailing, .callback (.terminal outcome trailing) ∈ w.log.marks →
    outcome.fromTrailers = false

/-- The given messages have been delivered or wait, in order. -/
structure World.Handed (messages : List Bytes) (w : World) : Prop where
  ordered : w.stream.cancelRequested = false → w.log.delivered <+: messages
  direct : w.stream.terminal = false → w.stream.cancelRequested = false →
    w.stream.receivePaused = false → w.stream.inbound = [] ∧ w.log.delivered = messages
  complete : w.stream.terminal = false → w.stream.forcedStatus = none →
    w.stream.cancelRequested = false → w.log.delivered ++ w.queued = messages

variable {c : Control} {messages : List Bytes}

theorem World.Parsed.app (h : w.Parsed gapless) (hmove : AppMove w w') : w'.Parsed gapless := by
  cases hmove with
  | cancel | release => exact { h with released := fun _ => rfl }
  | _ => exact { h with }

theorem World.Receiving.app (h : w.Receiving gapless c) (hmove : AppMove w w') :
    w'.Receiving gapless c :=
  { h.toParsed.app hmove with
    control := hmove.control.trans h.control
    base := hmove.base h.base
    untold := fun outcome trailing hmem => h.untold outcome trailing (hmove.terminalMark hmem) }

theorem World.Handed.app (h : w.Handed messages) (hmove : AppMove w w') : w'.Handed messages := by
  cases hmove with
  | cancel | release =>
    exact ⟨nofun, fun _ hset => Bool.noConfusion hset, fun _ _ hset => Bool.noConfusion hset⟩
  | _ => exact { h with }

section

variable (h : w.Receiving gapless c)

include h

theorem World.Receiving.start : At w c w := h.control ▸ At.self h.base

theorem World.Receiving.disabled (hoff : w.stream.enabled = false) :
    w.stream.terminal ∨ w.stream.cancelRequested := by
  unfold ClientStreamState.enabled at hoff
  have howned := h.base.owned
  have hreleased := h.released
  cases hterminal : w.stream.terminal with
  | true => exact .inl rfl
  | false =>
    right
    cases hcancel : w.stream.cancelRequested with
    | true => rfl
    | false =>
      rw [hcancel] at hreleased
      cases hown : w.stream.appOwned <;> simp_all

theorem World.Receiving.cancelled (hlive : c.terminal = false)
    (hoff : w.stream.enabled = false) : w.stream.cancelRequested := by
  have hlive : w.stream.terminal = false := (congrArg Control.terminal h.control).trans hlive
  exact (h.disabled hoff).resolve_left (by simp [hlive])

end

theorem World.Receiving.marked (h : w.Receiving gapless c) (payload : Bytes)
    (compression : Compression) (henabled : w.stream.enabled) :
    (w.marked (.callback (.message payload compression))).Receiving gapless c :=
  { h with
    base := AnyMove.base (.message payload compression henabled) h.base
    untold := fun outcome trailing hmem => by
      rcases List.mem_append.mp hmem with hmem | hmem
      · exact h.untold outcome trailing hmem
      · cases List.mem_singleton.mp hmem }

theorem delivered_message (payload : Bytes) (compression : Compression) :
    (w.marked (.callback (.message payload compression))).log.delivered =
      w.log.delivered ++ [payload] := by
  simp [World.marked, Log.delivered, Mark.message]

variable {I : World → Prop} {item : InboundMessage} {rest : List InboundMessage}

theorem invokeMessageCallback_receiving {payload : Bytes} {compression : Compression}
    (hI : AppClosed I) (h : w.Receiving gapless c) (hw : I w) {J : World → Prop} (hJ : AppClosed J)
    (hmark : ∀ w', w'.Receiving gapless c → I w' → w'.stream.enabled →
      J (w'.marked (.callback (.message payload compression)))) :
    wp (invokeMessageCallback payload compression)
      (fun _ w' => w'.Receiving gapless c ∧ (w'.stream.enabled = false ∧ I w' ∧
          (.cancel ∈ w.env.others.headD [] ∨ w'.Calm w.stream.cancelRequested) ∨ J w'))
      never w := by
  have hboth : AppClosed fun w' => w'.Receiving gapless c ∧ I w' :=
    fun _ _ hmove h => ⟨h.1.app hmove, hI hmove h.2⟩
  have hafter : AppClosed fun w' => w'.Receiving gapless c ∧ J w' :=
    fun _ _ hmove h => ⟨h.1.app hmove, hJ hmove h.2⟩
  unfold invokeMessageCallback beginClientCallback callbacksEnabled
  rw [wp_bind]
  refine wp_seq (lock_cancels hboth ⟨h, hw⟩) fun _ w₁ h₁ => ?_
  obtain ⟨⟨hreceiving, hw₁⟩, hcancels⟩ := h₁
  rw [wp_get_bind, wp_pure, wp_ite, wp_map, wp_pure]
  refine ⟨fun henabled => ?_, fun hoff =>
    ⟨hreceiving, .inl ⟨eq_false_of_ne_true hoff, hw₁, hcancels⟩⟩⟩
  refine wp_imp (runCallback_wp hafter ⟨hreceiving.marked payload compression henabled,
    hmark w₁ hreceiving hw₁ henabled⟩) fun _ _ h' => ⟨h'.1, .inr h'.2⟩

theorem World.Receiving.paused (h : w.Receiving gapless c) :
    World.Receiving gapless c { w with stream := { w.stream with receivePaused := true } } :=
  { h with base := { h.base with } }

def World.decodes (w : World) (message : Frame.DecodedMessage) : World :=
  { w with
    stream := { w.stream with decoder := { w.stream.decoder with
      offset := w.stream.decoder.offset + message.consumedBytes } }
    log := { w.log with decoded := w.log.decoded ++ [message.payload] } }

theorem World.Receiving.decodes (h : w.Receiving gapless c) {frame : Bytes}
    {message : Frame.DecodedMessage}
    (hframe : Frame.IsFrame w.gzip w.stream.decoder.maxMessageSize frame message.payload)
    (htaken : w.stream.decoder.available =
      frame ++ w.stream.decoder.available.drop message.consumedBytes)
    (hfits : message.consumedBytes ≤ w.stream.decoder.bufferedBytes) :
    (w.decodes message).Receiving gapless c := by
  have hoffset := h.offset
  have hrest : (w.decodes message).stream.decoder.available =
      w.stream.decoder.available.drop message.consumedBytes := by
    simp [World.decodes, Frame.Decoder.available]
  refine { h with
    offset := ?_
    parsed := fun hgapless => ?_
    base := { h.base with } }
  · show w.stream.decoder.offset + message.consumedBytes ≤ w.stream.decoder.buffer.length
    unfold Frame.Decoder.bufferedBytes at hfits
    omega
  · obtain ⟨frames, unfed, hframes, hreceived, hunfed⟩ := h.parsed hgapless
    refine ⟨frames ++ [frame], unfed, ?_, ?_, hunfed⟩
    · exact List.rel_append hframes (.cons hframe .nil)
    · rw [hrest, List.flatten_append, List.flatten_singleton]
      calc w.log.received
          = frames.flatten ++ w.stream.decoder.available ++ unfed := hreceived
        _ = frames.flatten ++ frame ++ w.stream.decoder.available.drop message.consumedBytes ++
            unfed := by
          rw [List.append_assoc frames.flatten frame, ← htaken]

theorem nextMessage_receiving (hI : AppClosed I)
    (hdecodes : ∀ {w : World} (message : Frame.DecodedMessage), I w → I (w.decodes message))
    (h : w.Receiving gapless c) (hw : I w) :
    wp nextMessage
      (fun message w' => w'.Receiving gapless c ∧ I w' ∧
        match message with
        | none => w'.log.decoded = w.log.decoded ∧ w'.stream.decoder.Starved
        | some message => w'.log.decoded = w.log.decoded ++ [message.payload] ∧
          w'.stream.decoder.bufferedBytes < w.stream.decoder.bufferedBytes)
      (fun _ w' => w'.Receiving gapless c ∧ I w' ∧ w'.log.decoded = w.log.decoded) w := by
  unfold nextMessage
  rw [wp_bind]
  refine drawFault_wp fun oom faults hfaults => ?_
  have hfault : World.Receiving gapless c { w with env := { w.env with faults := faults } } :=
    h.app (.env _ fun hnone => (hfaults hnone).2)
  have hkept : I { w with env := { w.env with faults := faults } } :=
    hI (.env _ fun hnone => (hfaults hnone).2) hw
  rw [wp_get_bind]
  have hanswers := w.stream.decoder.nextMessage_answers w.gzip oom
  cases hnext : w.stream.decoder.nextMessage w.gzip oom with
  | mk =>
    rw [hnext] at hanswers
    cases hanswers with
    | starved hstarved => exact ⟨hfault, hkept, rfl, hstarved⟩
    | failed => exact ⟨hfault, hkept, rfl⟩
    | message frame message hframe hlength htaken =>
      obtain ⟨_, hheader, hfits⟩ := Frame.Decoder.nextMessage_some hnext
      refine ⟨hfault.decodes hframe htaken hfits, hdecodes message hkept, rfl, ?_⟩
      show w.stream.decoder.buffer.length - (w.stream.decoder.offset + message.consumedBytes) < _
      unfold Frame.Decoder.bufferedBytes at hfits ⊢
      have hpositive : 0 < message.consumedBytes := Nat.lt_of_lt_of_le (by decide) hheader
      omega

theorem queueInboundMessage_receiving (decoded : Frame.DecodedMessage)
    (h : w.Receiving gapless c) (hw : w.Handed messages) (hpaused : w.stream.receivePaused) :
    wp (queueInboundMessage decoded)
      (fun _ w' => w'.Receiving gapless c ∧ w'.log.decoded = w.log.decoded ∧
        w'.stream.decoder = w.stream.decoder ∧ w'.Handed (messages ++ [decoded.payload]))
      (fun _ w' => w'.Receiving gapless c ∧ w'.log.decoded = w.log.decoded ∧
        w'.stream.receivePaused ∧ w'.Handed messages) w := by
  unfold queueInboundMessage modifyStream
  rw [wp_get_bind]
  split
  · exact ⟨h, rfl, hpaused, hw⟩
  · rename_i size hsize
    rw [wp_bind, wp_ensure]
    refine ⟨fun hfits => ?_, fun _ => ⟨h, rfl, hpaused, hw⟩⟩
    rw [wp_bind]
    refine external_wp (fun faults hfaults => ?_) fun faults hsome => ?_
    · rw [wp_modify]
      refine ⟨{ h with sized := ?_, bounded := ?_, base := { h.base with } }, rfl, rfl,
        { ordered := fun huncancelled => (hw.ordered huncancelled).trans (List.prefix_append _ _)
          direct := fun _ _ hunpaused => by cases hunpaused.symm.trans hpaused
          complete := fun hlive hunforced huncancelled => ?_ }⟩
      · simp [h.sized]
      · have := h.bounded
        show w.stream.inboundBuffered + size ≤ w.stream.limits.maxInboundBufferSize
        omega
      · have hcomplete := hw.complete hlive hunforced huncancelled
        simp only [World.queued] at hcomplete
        simp only [World.queued, List.map_append, List.map_cons, List.map_nil]
        rw [← List.append_assoc]
        exact congrArg (· ++ _) hcomplete
    · exact ⟨h.app (.env _ fun hnone => absurd hnone hsome), rfl, hpaused,
        hw.app (.env _ fun hnone => absurd hnone hsome)⟩

theorem World.Handed.skipped (h : w.Handed messages)
    (hoff : w.stream.terminal ∨ w.stream.cancelRequested) (payload : Bytes) :
    w.Handed (messages ++ [payload]) where
  ordered huncancelled := (h.ordered huncancelled).trans (List.prefix_append _ _)
  direct hlive huncancelled := absurd hoff (by simp [hlive, huncancelled])
  complete hlive _ huncancelled := absurd hoff (by simp [hlive, huncancelled])

theorem World.Handed.message (h : w.Handed messages) (henabled : w.stream.enabled)
    (hunpaused : w.stream.receivePaused = false) (payload : Bytes) (compression : Compression) :
    (w.marked (.callback (.message payload compression))).Handed (messages ++ [payload]) := by
  obtain ⟨_, _, huncancelled, hlive⟩ := enabled_iff.mp henabled
  obtain ⟨hempty, hdelivered⟩ := h.direct hlive huncancelled hunpaused
  have hall : (w.marked (.callback (.message payload compression))).log.delivered =
      messages ++ [payload] := by
    rw [delivered_message, hdelivered]
  refine ⟨fun _ => hall ▸ List.prefix_refl _, fun _ _ _ => ⟨hempty, hall⟩, fun _ _ _ => ?_⟩
  have hnone : (w.marked (.callback (.message payload compression))).queued = [] := by
    simp [World.queued, World.marked, hempty]
  rw [hall, hnone, List.append_nil]

theorem World.Handed.paused (h : w.Handed messages) :
    World.Handed messages { w with stream := { w.stream with receivePaused := true } } :=
  { h with direct := fun _ _ hunpaused => Bool.noConfusion hunpaused }

/-- The part of the state that handing on a message leaves alone. -/
def World.Fixed (decoded : List Bytes) (decoder : Frame.Decoder) (w : World) : Prop :=
  w.log.decoded = decoded ∧ w.stream.decoder = decoder

theorem World.Fixed.app {decoded : List Bytes} {decoder : Frame.Decoder}
    (h : w.Fixed decoded decoder) (hmove : AppMove w w') : w'.Fixed decoded decoder :=
  have hflow := hmove.flow
  ⟨(congrArg FlowPart.decoded hflow).trans h.1, (congrArg FlowPart.decoder hflow).trans h.2⟩

theorem World.Receiving.framed (h : w.Receiving gapless c) (hw : w.Handed messages)
    (hbegins : messages <+: w.log.decoded)
    (hall : w.stream.receivePaused = false → messages = w.log.decoded) : w.Framed gapless :=
  { h with
    ordered := fun huncancelled => (hw.ordered huncancelled).trans hbegins
    direct := fun hlive huncancelled hunpaused =>
      hall hunpaused ▸ hw.direct hlive huncancelled hunpaused
    told := fun _ outcome trailing hmem hset =>
      by cases (h.untold outcome trailing hmem).symm.trans hset }

theorem handDecoded_receiving (decoded : Frame.DecodedMessage) (h : w.Receiving gapless c)
    (hw : w.Handed messages) (hlast : w.log.decoded = messages ++ [decoded.payload]) :
    wp (handDecoded decoded)
      (fun _ w' => w'.Receiving gapless c ∧ w'.Handed w'.log.decoded ∧
        w'.stream.decoder = w.stream.decoder)
      (fun _ w' => w'.Receiving gapless c ∧ w'.Framed gapless) w := by
  have hclosed : AppClosed fun w' => w'.Receiving gapless c ∧ w'.Handed messages ∧
      w'.Fixed w.log.decoded w.stream.decoder :=
    fun _ _ hmove h => ⟨h.1.app hmove, h.2.1.app hmove, h.2.2.app hmove⟩
  unfold handDecoded
  refine wp_seq (callbacksEnabled_wp hclosed ⟨h, hw, rfl, rfl⟩) fun enabled w₁ h₁ => ?_
  obtain ⟨⟨hreceiving, hhanded, hdecoded, hdecoder⟩, rfl⟩ := h₁
  have hlast₁ : messages ++ [decoded.payload] = w₁.log.decoded := hlast.symm.trans hdecoded.symm
  rw [wp_ite, wp_pure]
  refine ⟨fun henabled => ?_, fun hoff => ⟨hreceiving, hlast₁ ▸ hhanded.skipped
    (hreceiving.disabled (eq_false_of_ne_true hoff)) _, hdecoder⟩⟩
  rw [wp_get_bind, wp_ite]
  refine ⟨fun hpaused => ?_, fun hunpaused => ?_⟩
  · refine wp_mono (queueInboundMessage_receiving decoded hreceiving hhanded hpaused)
      (fun _ w₂ h₂ => ?_) fun _ w₂ h₂ => ?_
    · obtain ⟨hreceiving₂, hsame, hdecoder₂, hhanded₂⟩ := h₂
      rw [hlast₁, ← hsame] at hhanded₂
      exact ⟨hreceiving₂, hhanded₂, hdecoder₂.trans hdecoder⟩
    · obtain ⟨hreceiving₂, hsame, hpaused₂, hhanded₂⟩ := h₂
      refine ⟨hreceiving₂, hreceiving₂.framed hhanded₂ ?_ fun hunpaused =>
        by cases hunpaused.symm.trans hpaused₂⟩
      exact hsame ▸ hlast₁ ▸ List.prefix_append _ _
  · have hunpaused : w₁.stream.receivePaused = false := eq_false_of_ne_true hunpaused
    have hbefore : AppClosed fun w' =>
        w'.Handed messages ∧ w'.Fixed w.log.decoded w.stream.decoder ∧
        w'.stream.receivePaused = false := fun _ _ hmove h =>
      ⟨h.1.app hmove, h.2.1.app hmove, (congrArg FlowPart.receivePaused hmove.flow).trans h.2.2⟩
    have hafter : AppClosed fun w' => w'.Handed (messages ++ [decoded.payload]) ∧
        w'.Fixed w.log.decoded w.stream.decoder :=
      fun _ _ hmove h => ⟨h.1.app hmove, h.2.app hmove⟩
    refine wp_ends_seq (invokeMessageCallback_receiving hbefore hreceiving
      ⟨hhanded, ⟨hdecoded, hdecoder⟩, hunpaused⟩ hafter fun w' _ hw' henabled =>
        ⟨hw'.1.message henabled hw'.2.2 _ _, hw'.2.1⟩) fun action w₂ h₂ => ?_
    obtain ⟨hreceiving₂, hdone⟩ := h₂
    have hdone : w₂.Handed (messages ++ [decoded.payload]) ∧
        w₂.Fixed w.log.decoded w.stream.decoder := by
      rcases hdone with ⟨hoff, ⟨hhanded₂, hfixed, _⟩, _⟩ | hdone
      · exact ⟨hhanded₂.skipped (hreceiving₂.disabled hoff) _, hfixed⟩
      · exact hdone
    obtain ⟨hhanded₂, hdecoded₂, hdecoder₂⟩ := hdone
    rw [← hlast, ← hdecoded₂] at hhanded₂
    unfold modifyStream
    rw [wp_when, wp_modify]
    exact ⟨fun _ => ⟨hreceiving₂.paused, hhanded₂.paused, hdecoder₂⟩,
      fun _ => ⟨hreceiving₂, hhanded₂, hdecoder₂⟩⟩

theorem decodeLoop_receiving : ∀ {fuel : ℕ} {w : World}, w.Receiving gapless c →
    w.Handed w.log.decoded → w.stream.decoder.bufferedBytes < fuel →
    wp (decodeLoop fuel)
      (fun _ w' => w'.Receiving gapless c ∧ w'.Handed w'.log.decoded ∧ w'.stream.decoder.Starved)
      (fun _ w' => w'.Receiving gapless c ∧ w'.Framed gapless) w
  | 0, _, _, _, hfuel => absurd hfuel (Nat.not_lt_zero _)
  | fuel + 1, w, h, hw, hfuel => by
    have hclosed : AppClosed (World.Handed w.log.decoded) := fun _ _ hmove h => h.app hmove
    unfold decodeLoop
    rw [wp_bind]
    refine wp_mono (nextMessage_receiving hclosed (fun _ h => { h with }) h hw)
      (fun message w₁ h₁ => ?_) fun _ w₁ h₁ => ?_
    · obtain ⟨hreceiving, hhanded, hmessage⟩ := h₁
      cases message with
      | none => exact ⟨hreceiving, hmessage.1 ▸ hhanded, hmessage.2⟩
      | some decoded =>
        obtain ⟨hlast, hless⟩ := hmessage
        dsimp only
        refine wp_seq (handDecoded_receiving decoded hreceiving hhanded hlast) fun _ w₂ h₂ => ?_
        obtain ⟨hreceiving₂, hhanded₂, hdecoder⟩ := h₂
        refine decodeLoop_receiving hreceiving₂ hhanded₂ ?_
        rw [hdecoder]
        omega
    · obtain ⟨hreceiving, hhanded, hsame⟩ := h₁
      exact ⟨hreceiving, hreceiving.framed hhanded (hsame ▸ List.prefix_refl _) fun _ => hsame.symm⟩

/-! ## The queue -/

structure World.Draining (gapless : Prop) (c : Control) (w : World) : Prop
    extends w.Receiving gapless c where
  starved : w.stream.decoder.Starved
  complete : w.stream.cancelRequested = false → w.log.delivered ++ w.queued = w.log.decoded
  done : w.stream.transportClosed → w.stream.inbound = [] → w.stream.appReleased = false →
    .cancel ∉ w.log.overtaking → w.log.delivered = w.log.decoded

theorem World.Draining.app (h : w.Draining gapless c) (hmove : AppMove w w') :
    w'.Draining gapless c := by
  have hreceiving := h.toReceiving.app hmove
  have hdelivered := hmove.delivered
  cases hmove with
  | cancel => exact { hreceiving with starved := h.starved, complete := nofun, done := h.done }
  | release =>
    exact { hreceiving with
      starved := h.starved
      complete := nofun
      done := fun _ _ hunreleased => Bool.noConfusion hunreleased }
  | _ => exact { hreceiving with starved := h.starved, complete := h.complete, done := h.done }

def World.popped (w : World) (item : InboundMessage) (rest : List InboundMessage) : World :=
  { w with stream := { w.stream with
    inbound := rest
    inboundBuffered := w.stream.inboundBuffered - item.bufferedSize } }

theorem World.Receiving.popped (h : w.Receiving gapless c)
    (hqueue : w.stream.inbound = item :: rest) : (w.popped item rest).Receiving gapless c := by
  have hsized := h.sized
  rw [hqueue, List.map_cons, List.sum_cons] at hsized
  have hbounded := h.bounded
  exact { h with
    sized := Nat.sub_eq_of_eq_add' hsized
    bounded := by
      show w.stream.inboundBuffered - item.bufferedSize ≤ w.stream.limits.maxInboundBufferSize
      omega
    base := { h.base with } }

/-- What other threads may do before the last message of a closed stream is noted. -/
def World.noted (w : World) : World :=
  if w.stream.transportClosed ∧ w.stream.inbound = [] then
    { w with log := { w.log with overtaking := w.log.overtaking ++ w.env.others.headD [] } }
  else w

theorem noteOvertaking_wp {Q : Unit → World → Prop} {E : StreamError → World → Prop}
    (h : Q () w.noted) : wp noteOvertaking Q E w := by
  unfold noteOvertaking modifyLog
  unfold World.noted at h
  rw [wp_get_when, wp_modify]
  exact ⟨fun hlast => by rwa [if_pos hlast] at h, fun hnot => by rwa [if_neg hnot] at h⟩

theorem World.Receiving.noted (h : w.Receiving gapless c) : w.noted.Receiving gapless c := by
  unfold World.noted
  split
  · exact { h with base := { h.base with } }
  · exact h

structure Handing (before : World) (delivered : List Bytes) (w : World) : Prop where
  flow : w.flow = before.flow
  delivered : w.log.delivered = delivered

theorem Handing.app {before : World} {delivered : List Bytes}
    (h : Handing before delivered w) (hmove : AppMove w w') : Handing before delivered w' :=
  ⟨hmove.flow.trans h.flow, hmove.delivered.trans h.delivered⟩

theorem noted_flow : w.noted.flow = { w.flow with overtaking := w.noted.log.overtaking } := by
  unfold World.noted
  split <;> rfl

theorem noted_overtaking (hclosed : w.stream.transportClosed) (hempty : w.stream.inbound = []) :
    w.noted.log.overtaking = w.log.overtaking ++ w.env.others.headD [] := by
  unfold World.noted
  rw [if_pos ⟨hclosed, hempty⟩]

theorem noted_delivered : w.noted.log.delivered = w.log.delivered := by
  unfold World.noted
  split <;> rfl

theorem noted_env : w.noted.env = w.env := by
  unfold World.noted
  split <;> rfl

theorem noted_cancelRequested : w.noted.stream.cancelRequested = w.stream.cancelRequested := by
  unfold World.noted
  split <;> rfl

theorem deliverItem_draining (h : w.Draining gapless c) (hlive : c.terminal = false)
    (henabled : w.stream.enabled) (hqueue : w.stream.inbound = item :: rest) :
    wp (invokeMessageCallback item.payload item.compression)
      (fun _ w' => w'.Draining gapless c ∧ w'.stream.inbound = rest) never
      (w.popped item rest).noted := by
  obtain ⟨_, _, huncancelled, _⟩ := enabled_iff.mp henabled
  have hcomplete := h.complete huncancelled
  rw [World.queued, hqueue, List.map_cons] at hcomplete
  have hflow := noted_flow (w := w.popped item rest)
  refine wp_imp (invokeMessageCallback_receiving
    (I := Handing (w.popped item rest).noted w.log.delivered)
    (J := Handing (w.popped item rest).noted (w.log.delivered ++ [item.payload]))
    (fun _ _ hmove h => h.app hmove) (h.toReceiving.popped hqueue).noted
    ⟨rfl, noted_delivered⟩ (fun _ _ hmove h => h.app hmove) fun w' _ hw' _ => ?_) fun _ w' h' => ?_
  · exact ⟨hw'.flow, (delivered_message _ _).trans (congrArg (· ++ _) hw'.delivered)⟩
  obtain ⟨hreceiving, hcase⟩ := h'
  have hdrained : ∀ {delivered : List Bytes}, Handing (w.popped item rest).noted delivered w' →
      w'.stream.decoder = w.stream.decoder ∧ w'.stream.inbound = rest ∧
        w'.log.decoded = w.log.decoded := by
    intro delivered hhanding
    have hsame := hhanding.flow.trans hflow
    exact ⟨congrArg FlowPart.decoder hsame, congrArg FlowPart.inbound hsame,
      congrArg FlowPart.decoded hsame⟩
  rcases hcase with ⟨hoff, hhanding, hcancels⟩ | hhanding
  · obtain ⟨hdecoder, hrest, hdecoded⟩ := hdrained hhanding
    have hcancelled := hreceiving.cancelled hlive hoff
    refine ⟨{ hreceiving with
      starved := hdecoder ▸ h.starved
      complete := fun hnot => by cases hnot.symm.trans hcancelled
      done := fun hclosed hempty hunreleased hquiet => ?_ }, hrest⟩
    -- nothing but a cancel by another thread can have come in between
    have hclosed : w.stream.transportClosed := (congrArg Control.closed
      (hreceiving.control.trans h.control.symm)).symm.trans hclosed
    have hover : w'.log.overtaking = w.log.overtaking ++ w.env.others.headD [] :=
      (congrArg FlowPart.overtaking hhanding.flow).trans
        (noted_overtaking hclosed (hrest.symm.trans hempty))
    rw [noted_env, noted_cancelRequested] at hcancels
    rcases hcancels with hmem | hcalm
    · exact absurd (hover ▸ List.mem_append_right _ hmem) hquiet
    · rcases hcalm hcancelled with hbefore | hreleased
      · cases huncancelled.symm.trans hbefore
      · cases hunreleased.symm.trans hreleased
  · obtain ⟨hdecoder, hrest, hdecoded⟩ := hdrained hhanding
    have hall : w'.log.delivered ++ w'.queued = w'.log.decoded := by
      rw [hhanding.delivered, hdecoded, World.queued, hrest, List.append_assoc,
        List.singleton_append]
      exact hcomplete
    refine ⟨{ hreceiving with
      starved := hdecoder ▸ h.starved
      complete := fun _ => hall
      done := fun _ hempty _ _ => ?_ }, hrest⟩
    rw [World.queued, hempty, List.map_nil, List.append_nil] at hall
    exact hall

theorem World.Draining.paused (h : w.Draining gapless c) :
    World.Draining gapless c { w with stream := { w.stream with receivePaused := true } } :=
  { h.toReceiving.paused with starved := h.starved, complete := h.complete, done := h.done }

theorem deliverQueued_draining (hlive : c.terminal = false) : ∀ {fuel : ℕ} {w : World},
    w.Draining gapless c → w.stream.inbound.length ≤ fuel →
    wp (deliverQueued fuel) (fun _ w' => w'.Draining gapless c ∧
      (w'.stream.cancelRequested = false → w'.stream.receivePaused = false →
        w'.stream.inbound = []))
      never w
  | 0, w, h, hfuel => ⟨h, fun _ _ => List.length_eq_zero_iff.mp (Nat.le_zero.mp hfuel)⟩
  | fuel + 1, w, h, hfuel => by
    unfold deliverQueued modifyStream
    rw [wp_get_bind]
    dsimp only
    split
    · rename_i hempty
      exact ⟨h, fun _ _ => hempty⟩
    · rename_i item rest hqueue
      rw [wp_ite, wp_pure]
      refine ⟨fun hpaused => ⟨h, fun _ hunpaused => by cases hunpaused.symm.trans hpaused⟩,
        fun _ => ?_⟩
      rw [wp_bind]
      have hclosed : AppClosed fun w' => w'.Draining gapless c ∧ w'.stream.inbound = item :: rest :=
        fun _ _ hmove h => ⟨h.1.app hmove, (congrArg FlowPart.inbound hmove.flow).trans h.2⟩
      refine wp_imp (callbacksEnabled_wp hclosed ⟨h, hqueue⟩) fun enabled w₁ h₁ => ?_
      obtain ⟨⟨hdraining, hqueue₁⟩, rfl⟩ := h₁
      rw [wp_ite, wp_pure]
      refine ⟨fun henabled => ?_, fun hoff => ⟨hdraining, fun huncancelled _ => ?_⟩⟩
      · rw [wp_modify_bind, wp_bind]
        refine noteOvertaking_wp ?_
        refine wp_seq (deliverItem_draining hdraining hlive henabled hqueue₁) fun action w₂ h₂ => ?_
        obtain ⟨hdraining₂, hrest⟩ := h₂
        have hfuel₂ : w₂.stream.inbound.length ≤ fuel := by
          rw [hqueue, List.length_cons] at hfuel
          rw [hrest]
          omega
        rw [wp_bind, wp_when, wp_modify]
        exact ⟨fun _ => deliverQueued_draining hlive hdraining₂.paused hfuel₂,
          fun _ => deliverQueued_draining hlive hdraining₂ hfuel₂⟩
      · have hcancelled := hdraining.cancelled hlive (eq_false_of_ne_true hoff)
        cases huncancelled.symm.trans hcancelled

end GrpcLite.Client
