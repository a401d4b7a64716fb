import GrpcLite.Client.Reach

/-!
# The steps of a client stream

The functions that touch the receiving side, and from them every event: each one is a sequence
of moves and leaves a control that is settled.  `Invariant` packages the induction over runs.
-/

namespace GrpcLite.Client

open Prog

/-- The moves from `w₀`, on the receiving side too, have led to `w`, with control `c`. -/
structure AtAny (w₀ : World) (c : Control) (w : World) : Prop where
  moves : AnyMoves w₀ w
  control : w.control = c
  base : w.Base

variable {w₀ w : World} {c : Control}

theorem AtAny.self (h : w.Base) : AtAny w w.control w := ⟨.refl, rfl, h⟩

variable {w' w₁ : World} {c' : Control} {J : World → Prop} {event : Event} {id : ℕ}

theorem AtAny.quiet (h : AtAny w₀ c w) (hmove : AnyMove w w') (hcontrol : w'.control = w.control) :
    AtAny w₀ c w' :=
  ⟨h.moves.tail hmove, hcontrol.trans h.control, hmove.base h.base⟩

theorem atAny_closed (w₀ : World) (c : Control) : AppClosed (AtAny w₀ c) :=
  fun _ _ hmove h => h.quiet (.outer (.app hmove)) hmove.control

theorem AtAny.flow (h : AtAny w₀ c w) (part : FlowPart)
    (hqueue : w.stream.Requeues part.inbound part.inboundBuffered) :
    AtAny w₀ c (w.withFlow part) :=
  h.quiet (.flow part hqueue) rfl

theorem AtAny.start (h : AtAny w₀ c w) : At w c w := h.control ▸ At.self h.base

theorem AtAny.then (h : AtAny w₀ c w) (h' : At w c' w') : AtAny w₀ c' w' :=
  ⟨h.moves.trans h'.moves.any, h'.control, h'.base⟩

theorem At.any (h : At w₀ c w) : AtAny w₀ c w := ⟨h.moves.any, h.control, h.base⟩

theorem externalAny (error : StreamError) : Keeps (AtAny w₀ c) (external error) :=
  external_keeps (atAny_closed w₀ c) error

/-! ## The receiving side -/

structure Conveying (I : World → Prop) : Prop where
  app : AppClosed I
  message : ∀ {w : World} (payload : Bytes) (compression : Compression), w.stream.enabled → I w →
    I (w.marked (.callback (.message payload compression)))
  queue : ∀ {w : World} {inbound : List InboundMessage} {buffered : ℕ},
    w.stream.Requeues inbound buffered → I w →
    I { w with stream := { w.stream with inbound := inbound, inboundBuffered := buffered } }
  overtaking : ∀ {w : World} (actions : List AppAction), I w →
    I { w with log := { w.log with overtaking := actions } }
  pause : ∀ {w : World}, I w → I { w with stream := { w.stream with receivePaused := true } }

/-- What decoding messages and handing them on cannot break. -/
structure Delivering (I : World → Prop) : Prop extends Conveying I where
  decode : ∀ {w : World} (decoder : Frame.Decoder) (decoded : List Bytes), I w →
    I { w with
      stream := { w.stream with decoder := decoder }
      log := { w.log with decoded := decoded } }

theorem Delivering.and {I : World → Prop} (hI : Delivering I) (hJ : Delivering J) :
    Delivering fun w => I w ∧ J w where
  app _ _ hmove h := ⟨hI.app hmove h.1, hJ.app hmove h.2⟩
  message payload compression henabled h :=
    ⟨hI.message payload compression henabled h.1, hJ.message payload compression henabled h.2⟩
  queue hqueue h := ⟨hI.queue hqueue h.1, hJ.queue hqueue h.2⟩
  decode decoder decoded h := ⟨hI.decode decoder decoded h.1, hJ.decode decoder decoded h.2⟩
  overtaking actions h := ⟨hI.overtaking actions h.1, hJ.overtaking actions h.2⟩
  pause h := ⟨hI.pause h.1, hJ.pause h.2⟩

theorem atAny_delivering (w₀ : World) (c : Control) : Delivering (AtAny w₀ c) where
  app := atAny_closed w₀ c
  message payload compression henabled h := h.quiet (.message payload compression henabled) rfl
  queue {w inbound buffered} hqueue h :=
    h.flow { w.flow with inbound := inbound, inboundBuffered := buffered } hqueue
  decode {w} decoder decoded h := h.flow { w.flow with decoder := decoder, decoded := decoded } .same
  overtaking {w} actions h := h.flow { w.flow with overtaking := actions } .same
  pause {w} h := h.flow { w.flow with receivePaused := true } .same

namespace Conveying

variable {I : World → Prop}

variable (hI : Conveying I)

include hI

theorem queueInboundMessage (decoded : Frame.DecodedMessage) (h : I w)
    (henabled : w.stream.enabled) :
    wp (queueInboundMessage decoded) (fun _ => I) (fun _ => I) w := by
  unfold Client.queueInboundMessage modifyStream
  rw [wp_get_bind]
  dsimp only
  split
  · exact h
  · rename_i bufferedSize hsize
    rw [wp_bind, wp_ensure]
    refine ⟨fun hroom => ?_, fun _ => h⟩
    rw [wp_bind]
    refine external_wp (fun faults hfaults => ?_) fun faults hsome =>
      hI.app.calm.env (fun hnone => absurd hnone hsome) h
    exact hI.queue (.push ⟨decoded.payload, _, bufferedSize⟩ henabled hsize hroom)
      (hI.app.calm.env hfaults h)

theorem invokeMessageCallback (payload : Bytes) (compression : Compression) :
    Ends I (invokeMessageCallback payload compression) := by
  intro w h
  unfold Client.invokeMessageCallback beginClientCallback
  refine wp_seq (callbacksEnabled_wp hI.app h) fun enabled w₁ h₁ => ?_
  obtain ⟨hw₁, rfl⟩ := h₁
  rw [wp_ite, wp_map, wp_pure]
  refine ⟨fun henabled => ?_, fun _ => hw₁⟩
  exact runCallback_wp hI.app (hI.message payload compression henabled hw₁)

theorem pauses (action : Option ReceiveAction) :
    Ends I (when (action = some .pause) (modifyStream fun s => { s with receivePaused := true })) :=
  .when fun _ => .modify fun _ h => hI.pause h

theorem handDecoded (decoded : Frame.DecodedMessage) :
    Keeps I (handDecoded decoded) := by
  intro w h
  unfold Client.handDecoded
  refine wp_seq (callbacksEnabled_wp hI.app h) fun enabled w₁ h₁ => ?_
  obtain ⟨hw₁, rfl⟩ := h₁
  rw [wp_ite]
  refine ⟨fun henabled => ?_, fun _ => hw₁⟩
  rw [wp_get_bind, wp_ite]
  refine ⟨fun _ => hI.queueInboundMessage decoded hw₁ henabled, fun _ => ?_⟩
  have hhanded := Exits.bind (hI.invokeMessageCallback decoded.payload
    (if decoded.compressed then .gzip else .identity)) hI.pauses
  exact wp_ends (hhanded w₁ hw₁) fun _ _ h' => h'

theorem noteOvertaking : Ends I noteOvertaking :=
  .bind .get fun _ => .when fun _ => .modify fun _ h => hI.overtaking _ h

theorem deliverQueued (fuel : ℕ) : Ends I (deliverQueued fuel) := by
  induction fuel with
  | zero => exact .pure _
  | succ fuel ih =>
    intro w h
    unfold Client.deliverQueued modifyStream
    rw [wp_get_bind]
    dsimp only
    split
    · exact h
    · rename_i item rest hqueue
      rw [wp_ite]
      refine ⟨fun _ => h, fun _ => ?_⟩
      -- the application cannot change the queue while the loop waits for the mutex
      have hclosed : AppClosed fun w' => I w' ∧ w'.stream.inbound = item :: rest :=
        fun _ _ hmove h => ⟨hI.app hmove h.1, (congrArg FlowPart.inbound hmove.flow).trans h.2⟩
      refine wp_seq (callbacksEnabled_wp hclosed ⟨h, hqueue⟩) fun enabled w₁ h₁ => ?_
      obtain ⟨⟨hw₁, hqueue₁⟩, rfl⟩ := h₁
      rw [wp_ite]
      refine ⟨fun henabled => ?_, fun _ => hw₁⟩
      rw [wp_modify_bind]
      suffices hrest : Ends I _ from hrest _ (hI.queue (.pop item rest henabled hqueue₁) hw₁)
      exact .bind hI.noteOvertaking fun _ => .bind (hI.invokeMessageCallback _ _) fun action =>
        .bind (hI.pauses action) fun _ => ih

/-- The delivery, given what decoding does in it and what is left to do after it when the stream was
closed and nothing waits. -/
theorem deliverInboundMessages (h : I { w with stream := { w.stream with
      receivePaused := false } }) {Q : Unit → World → Prop} {E : StreamError → World → Prop}
    (hdecode : ∀ w', I w' → wp decodeAvailableMessages (fun _ => I) E w')
    (hlast : ∀ w', I w' → w'.stream.transportClosed → w'.stream.receivePaused = false →
      w'.stream.inbound = [] →
      wp (do finalizeClientStream; releaseStreamLoopOwnership) Q E w')
    (hkept : ∀ w', I w' → ¬(w'.stream.transportClosed ∧ ¬w'.stream.receivePaused ∧
      w'.stream.inbound = []) → Q () w') : wp deliverInboundMessages Q E w := by
  unfold Client.deliverInboundMessages modifyStream
  rw [wp_modify_bind, wp_get_bind]
  refine wp_ends_seq (hI.deliverQueued _ _ h) fun _ w₁ h₁ => ?_
  rw [wp_get_bind, wp_bind]
  have hdecoded : wp (when (¬w₁.stream.receivePaused) decodeAvailableMessages)
      (fun _ => I) E w₁ := by
    rw [wp_when]
    exact ⟨fun _ => hdecode w₁ h₁, fun _ => h₁⟩
  refine wp_imp hdecoded fun _ w₂ h₂ => ?_
  rw [wp_get_when]
  refine ⟨fun hdone => ?_, fun hleft => hkept w₂ h₂ hleft⟩
  exact hlast w₂ h₂ hdone.1 (by simpa using hdone.2.1) hdone.2.2

end Conveying

namespace Delivering

variable {I : World → Prop}

variable (hI : Delivering I)

include hI

theorem nextMessage : Keeps I nextMessage := by
  unfold Client.nextMessage
  refine .bind (drawFault_ends hI.app).keeps fun oom => .bind .get fun s => ?_
  split
  · exact .throw fun _ => id
  · exact .pure _
  · exact .bind (.modify fun w h => hI.decode _ _ h) fun _ => .pure _

theorem decodeLoop (fuel : ℕ) : Keeps I (decodeLoop fuel) := by
  induction fuel with
  | zero => exact .pure _
  | succ fuel ih =>
    unfold Client.decodeLoop
    refine .bind hI.nextMessage fun message => ?_
    split
    · exact .pure _
    · exact .bind (hI.handDecoded _) fun _ => ih

theorem decodeAvailableMessages : Keeps I decodeAvailableMessages :=
  .bind .get fun _ => hI.decodeLoop _

/-- What is left to do after the delivery when the stream was closed and nothing waits. -/
theorem deliverInboundMessages (h : I { w with stream := { w.stream with
      receivePaused := false } }) {Q : Unit → World → Prop} {E : StreamError → World → Prop}
    (hlast : ∀ w', I w' → w'.stream.transportClosed → w'.stream.receivePaused = false →
      w'.stream.inbound = [] →
      wp (do finalizeClientStream; releaseStreamLoopOwnership) Q E w')
    (hkept : ∀ w', I w' → Q () w') (hfail : ∀ err w', I w' → E err w') :
    wp deliverInboundMessages Q E w :=
  hI.toConveying.deliverInboundMessages h
    (fun w' h' => wp_mono (hI.decodeAvailableMessages w' h') (fun _ _ h'' => h'') hfail) hlast
    fun w' h' _ => hkept w' h'

end Delivering

theorem deliverInboundMessages_any (h : AtAny w₀ c w) (howned : c.loopOwned) :
    wp deliverInboundMessages
      (fun _ w' => AtAny w₀ c w' ∨ c.closed ∧ AtAny w₀ c.gaveUp w') (fun _ => AtAny w₀ c) w := by
  refine (atAny_delivering w₀ c).deliverInboundMessages
    (h.flow { w.flow with receivePaused := false } .same) (fun w₁ h₁ hclosed hunpaused hempty => ?_)
    (fun _ h' => .inl h') fun _ _ h' => h'
  have hclosed : c.closed := h₁.control ▸ hclosed
  exact wp_ends (finalizeRelease_at h₁.start hclosed howned (.inl ⟨hunpaused, hempty⟩))
    fun _ w₂ h₂ => .inr ⟨hclosed, h₁.then h₂⟩

theorem returnDeferredCredit_any : Keeps (AtAny w₀ c) returnDeferredCredit := by
  unfold returnDeferredCredit
  refine .bind .get fun s => .when fun _ => .bind (externalAny _) fun _ => .modify fun w h => ?_
  exact h.flow { w.flow with deferredStreamCredit := 0, streamCredit := _ } .same

theorem creditConnection_any (length : ℕ) : Keeps (AtAny w₀ c) (creditConnection length) :=
  .bind (externalAny _) fun _ => .modify fun w h => h.flow { w.flow with connectionCredit := _ } .same

theorem creditStream_any (length : ℕ) : Keeps (AtAny w₀ c) (creditStream length) := by
  unfold creditStream modifyStream modifyLog
  refine .bind .get fun s => .ite (fun _ => ?_) fun _ => .bind (externalAny _) fun _ =>
    .modify fun w h => h.flow { w.flow with streamCredit := _ } .same
  split
  · exact .throw fun _ => id
  · exact .modify fun w h => h.flow { w.flow with deferredStreamCredit := _ } .same

def SettledAny (w₀ : World) (c : Control) (w : World) : Prop := ∃ c', c.Settles c' ∧ AtAny w₀ c' w

def BrokenAny (w₀ : World) (c : Control) (w : World) : Prop := ∃ c', c.Breaks c' ∧ AtAny w₀ c' w

theorem AtAny.settled (h : AtAny w₀ c w) : SettledAny w₀ c w := ⟨c, .same, h⟩

theorem AtAny.broken (h : AtAny w₀ c w) : BrokenAny w₀ c w := ⟨c, .same, h⟩

theorem failClientStreamOnLoop_any {failure : Status} (h : AtAny w₀ c w) (hc : c.Forcible)
    (hcode : failure.code ≠ .ok) :
    wp (failClientStreamOnLoop failure) (fun _ => AtAny w₀ { c.force failure with rst := true })
      (fun _ => BrokenAny w₀ c) w :=
  wp_mono (failClientStreamOnLoop_at h.start hc hcode) (fun _ _ h' => h.then h')
    fun _ _ h' => ⟨_, .failed failure, h.then h'⟩

theorem decodeFailure_ne_ok (err : StreamError) : (decodeFailure err).code ≠ .ok := by
  unfold decodeFailure
  split <;> nofun

theorem feedFailure_ne_ok (err : FrameError) : (feedFailure err).code ≠ .ok := by
  unfold feedFailure
  split <;> nofun

theorem onDataFed_any (length : ℕ) (h : AtAny w₀ c w) (hc : c.Forcible) :
    wp (onDataFed length) (fun _ => SettledAny w₀ c) (fun _ => BrokenAny w₀ c) w := by
  unfold onDataFed
  rw [wp_bind]
  refine wp_mono (creditConnection_any length w h) (fun _ w₁ h₁ => ?_) fun _ _ h' => h'.broken
  rw [wp_bind, wp_tryCatch, wp_bind]
  refine wp_mono ((atAny_delivering w₀ c).decodeAvailableMessages w₁ h₁) (fun _ w₂ h₂ => ?_)
    fun err w₂ h₂ => ?_
  · rw [wp_pure]
    exact wp_mono (creditStream_any length w₂ h₂) (fun _ _ h' => h'.settled) fun _ _ h' => h'.broken
  · rw [wp_pure]
    exact wp_imp (failClientStreamOnLoop_any h₂ hc (decodeFailure_ne_ok err))
      fun _ w₃ h₃ => ⟨_, .failed _, h₃⟩

theorem onDataChunk_any (data : Bytes) (h : AtAny w₀ c w) (hc : c.Forcible) :
    wp (onDataChunk data) (fun _ => SettledAny w₀ c) (fun _ => BrokenAny w₀ c) w := by
  unfold onDataChunk modifyLog modifyStream
  have hreceived := h.flow { w.flow with received := w.log.received ++ data } .same
  rw [wp_modify_bind, wp_get_bind, wp_ite]
  refine ⟨fun _ => wp_mono (creditConnection_any _ _ hreceived) (fun _ _ h' => h'.settled)
    fun _ _ h' => h'.broken, fun _ => ?_⟩
  rw [wp_bind]
  refine drawFault_wp fun oom faults hfaults => ?_
  have hfault : AtAny w₀ c { w with
      log := { w.log with received := w.log.received ++ data }
      env := { w.env with faults := faults } } :=
    hreceived.quiet (.outer (.app (.env _ fun hnone => (hfaults hnone).2))) rfl
  split
  · rename_i err decoder _
    rw [wp_modify_bind, wp_bind]
    have hrefused := hfault.flow { w.flow with
      received := w.log.received ++ data, decoder := decoder, refused := true } .same
    refine wp_imp (failClientStreamOnLoop_any hrefused hc (feedFailure_ne_ok err)) fun _ w₁ h₁ => ?_
    exact wp_mono (creditConnection_any _ w₁ h₁) (fun _ w₂ h₂ => ⟨_, .failed _, h₂⟩)
      fun _ w₂ h₂ => ⟨_, .reset _, h₂⟩
  · rename_i decoder _
    rw [wp_modify_bind]
    exact onDataFed_any _ (hfault.flow { w.flow with
      received := w.log.received ++ data, decoder := decoder } .same) hc

/-! ## Wakes -/

/-- The control that the commands of a stream leave: one that was cancelled has lost its deadline
and is reset, or has ended if it was closed. -/
inductive Control.Commanded (c : Control) : Control → Prop
  | same : c.Commanded c
  | gaveUp (hclosed : c.closed) : c.Commanded c.gaveUp
  | reset (hopened : c.closed = false) : c.Commanded { c with entry := none, rst := true }
  | cancel (hopened : c.closed = false) :
      c.Commanded { c.force cancelStatus with entry := none, rst := true }

inductive Control.Interrupted (c : Control) : Control → Prop
  | same : c.Interrupted c
  | cancel (entry : Option ℕ) (forced : Option Status) (hopened : c.closed = false) :
      c.Interrupted { c with entry := entry, forced := forced }

theorem resetCancelled_at (released : Bool) (h : At w₀ c w) (hc : c.Forcible) :
    wp (resetCancelled released)
      (fun _ w' => At w₀ { c with rst := true } w' ∨
        At w₀ { c.force cancelStatus with rst := true } w')
      (fun _ w' => At w₀ c w' ∨ At w₀ (c.force cancelStatus) w') w := by
  obtain rfl := h.control
  unfold resetCancelled modifyStream
  rw [wp_get_when]
  refine ⟨fun _ => ?_, fun hreset => .inl ⟨h.moves, ?_, h.base⟩⟩
  · have hreset : ∀ c₁ w₁, At w₀ c₁ w₁ → wp (do
        external .nativeFailure
        modify fun w : World => { w with stream := { w.stream with rstSubmitted := true } })
        (fun _ => At w₀ { c₁ with rst := true }) (fun _ => At w₀ c₁) w₁ := by
      intro c₁ w₁ h₁
      refine wp_seq (external_at _ w₁ h₁) fun _ w₂ h₂ => ?_
      exact h₂.move .reset (congrArg (fun c : Control => { c with rst := true }) h₂.control)
    rw [wp_bind, wp_when, wp_modify]
    refine ⟨fun _ => ?_, fun _ => ?_⟩
    · have hforced := h.force cancelStatus hc.live hc.submitted nofun
      exact wp_mono (hreset _ _ hforced) (fun _ _ h' => .inr h') fun _ _ h' => .inr h'
    · exact wp_mono (hreset _ _ h) (fun _ _ h' => .inl h') fun _ _ h' => .inl h'
  · have hrst : w.control.rst = true := not_not.mp hreset
    rw [← hrst]

theorem processOpenCommands_reset (released resumeData resumeReceive : Bool) (h : At w₀ c w)
    (hc : c.Forcible) :
    wp (processOpenCommands true released resumeData resumeReceive)
      (fun _ w' => At w₀ { c with rst := true } w' ∨
        At w₀ { c.force cancelStatus with rst := true } w')
      (fun _ w' => At w₀ c w' ∨ At w₀ (c.force cancelStatus) w') w := by
  unfold processOpenCommands
  rw [wp_bind, wp_when]
  refine ⟨fun _ => ?_, fun hnot => absurd rfl hnot⟩
  refine wp_imp (resetCancelled_at released h hc) fun _ w₁ h₁ => ?_
  -- a stream that is reset takes no further command
  have hreset : w₁.stream.rstSubmitted = true :=
    h₁.elim (fun h' => congrArg Control.rst h'.control) fun h' => congrArg Control.rst h'.control
  rw [wp_get_bind]
  simp only [hreset, not_true, and_false, wp_bind, wp_when]
  exact ⟨False.elim, fun _ => ⟨False.elim, fun _ => h₁⟩⟩

section

variable {I : World → Prop} {Q : Unit → World → Prop} {E : StreamError → World → Prop}

theorem processOpenCommands_resume {released resumeData resumeReceive : Bool}
    (hdeliver : w.stream.rstSubmitted = false → ∀ w', AppMove w w' → w'.stream = w.stream →
      wp (do deliverInboundMessages; returnDeferredCredit) Q E w')
    (hQ : ∀ w', AppMove w w' → Q () w') (hE : ∀ error w', AppMove w w' → E error w') :
    wp (processOpenCommands false released resumeData resumeReceive) Q E w := by
  have hreceive : ∀ w', AppMove w w' → w'.stream = w.stream →
      wp (when (resumeReceive ∧ ¬w.stream.rstSubmitted) do
        deliverInboundMessages
        returnDeferredCredit) Q E w' := by
    intro w' hmove hsame
    rw [wp_when]
    exact ⟨fun hgo => hdeliver (eq_false_of_ne_true hgo.2) w' hmove hsame, fun _ => hQ w' hmove⟩
  unfold processOpenCommands
  rw [wp_bind, wp_when]
  refine ⟨fun hset => absurd hset Bool.false_ne_true, fun _ => ?_⟩
  rw [wp_get_bind, wp_bind, wp_when]
  refine ⟨fun _ => ?_, fun _ => hreceive w (.env w.env id) rfl⟩
  exact external_wp (fun faults hfaults => hreceive _ (.env _ hfaults) rfl)
    fun faults hsome => hE _ _ (.env _ fun hnone => absurd hnone hsome)

def World.taken (w : World) : World :=
  { w with stream := { w.stream with
    resumeRequested := false
    providerDeferred := w.stream.providerDeferred && !(w.stream.providerDeferred &&
      (!w.stream.outbound.isEmpty || !w.stream.sendOpen)) } }

def World.undated (w : World) : World :=
  { w with stream := { w.stream with deadlineEntry := none } }

/-- `processClientStreamCommands` from the end of its critical section, in which it has found the
stream as `s`. -/
def obeyCommands (s : ClientStreamState) : ClientM Unit := do
  let cancelRequested := s.cancelRequested || s.appReleased
  let resumeData := s.providerDeferred && (!s.outbound.isEmpty || !s.sendOpen)
  when cancelRequested removeStreamDeadline
  if s.transportClosed then
    if cancelRequested then giveUp .cancelled "stream cancelled"
    else when s.resumeRequested deliverInboundMessages
  else processOpenCommands cancelRequested s.appReleased resumeData s.resumeRequested

theorem processClientStreamCommands_wp (hI : AppClosed I) (h : I w)
    (howned : w.stream.loopOwned) (hobey : ∀ w₁, I w₁ → wp (obeyCommands w₁.stream) Q E w₁.taken) :
    wp processClientStreamCommands Q E w := by
  unfold processClientStreamCommands modifyStream
  rw [wp_get_when]
  refine ⟨fun _ => ?_, fun hnot => absurd howned hnot⟩
  refine wp_ends_seq (lock_ends hI w h) fun _ w₁ h₁ => ?_
  exact hobey w₁ h₁

theorem obeyCommands_wp
    (hend : w.stream.transportClosed → (w.stream.cancelRequested || w.stream.appReleased) →
      wp (giveUp .cancelled "stream cancelled") Q E w.taken.undated)
    (hdeliver : w.stream.transportClosed → w.stream.cancelRequested = false →
      wp deliverInboundMessages Q E w.taken) (hwait : w.stream.transportClosed → Q () w.taken)
    (hreset : w.stream.transportClosed = false →
      (w.stream.cancelRequested || w.stream.appReleased) → ∀ resumeData resumeReceive,
        wp (processOpenCommands true w.stream.appReleased resumeData resumeReceive) Q E
          w.taken.undated)
    (hopen : w.stream.transportClosed = false → w.stream.cancelRequested = false →
      ∀ resumeData resumeReceive,
        wp (processOpenCommands false false resumeData resumeReceive) Q E w.taken) :
    wp (obeyCommands w.stream) Q E w.taken := by
  unfold obeyCommands removeStreamDeadline modifyStream
  dsimp only
  rw [wp_bind, wp_when, wp_modify]
  refine ⟨fun hcancel => ?_, fun hkept => ?_⟩
  · rw [wp_ite, if_pos hcancel, hcancel]
    exact ⟨fun hclosed => hend hclosed hcancel,
      fun hopened => hreset (eq_false_of_ne_true hopened) hcancel _ _⟩
  · rw [Bool.not_eq_true, Bool.or_eq_false_iff] at hkept
    rw [hkept.1, hkept.2, Bool.or_self, wp_ite, if_neg Bool.false_ne_true, wp_when]
    exact ⟨fun hclosed => ⟨fun _ => hdeliver hclosed hkept.1, fun _ => hwait hclosed⟩,
      fun hopened => hopen (eq_false_of_ne_true hopened) hkept.1 _ _⟩

end

theorem obeyCommands_any (h : AtAny w₀ c w.taken) (howned : c.loopOwned)
    (hopen : c.closed = false → c.Forcible) (hclosed : c.closed → c.forced = none) :
    wp (obeyCommands w.stream) (fun _ w' => ∃ c', c.Commanded c' ∧ AtAny w₀ c' w')
      (fun _ w' => ∃ c', c.Interrupted c' ∧ AtAny w₀ c' w') w.taken := by
  have hcontrol : w.control = c := h.control
  have hup (hopened : w.stream.transportClosed = false) : c.closed = false := hcontrol ▸ hopened
  have hremoved : AtAny w₀ { c with entry := none } w.taken.undated :=
    h.then (h.start.move (.deadline none) (congrArg (fun c : Control =>
      { c with entry := none }) h.control))
  refine obeyCommands_wp (fun hshut _ => ?_) (fun _ _ => ?_) (fun _ => ⟨c, .same, h⟩)
    (fun hopened _ resumeData resumeReceive => ?_) fun hopened _ _ _ => ?_
  · have hshut : c.closed := hcontrol ▸ hshut
    exact wp_ends (giveUp_unforced hremoved.start howned nofun (hclosed hshut))
      fun _ _ h' => ⟨_, .gaveUp hshut, hremoved.then h'⟩
  · refine wp_mono (deliverInboundMessages_any h howned) (fun _ w₂ h₂ => ?_)
      fun _ _ h' => ⟨c, .same, h'⟩
    rcases h₂ with h₂ | ⟨hshut, h₂⟩
    · exact ⟨c, .same, h₂⟩
    · exact ⟨_, .gaveUp hshut, h₂⟩
  · have hc := hopen (hup hopened)
    refine wp_mono (processOpenCommands_reset _ resumeData resumeReceive hremoved.start
      { hc with }) (fun _ w₂ h₂ => ?_) fun _ w₂ h₂ => ?_
    · rcases h₂ with h₂ | h₂
      · exact ⟨_, .reset (hup hopened), hremoved.then h₂⟩
      · exact ⟨_, .cancel (hup hopened), hremoved.then h₂⟩
    · rcases h₂ with h₂ | h₂
      · exact ⟨_, .cancel none c.forced (hup hopened), hremoved.then h₂⟩
      · exact ⟨_, .cancel none _ (hup hopened), hremoved.then h₂⟩
  · have hsame {w' : World} (h' : AtAny w₀ c w') : ∃ c', c.Interrupted c' ∧ AtAny w₀ c' w' :=
      ⟨c, .same, h'⟩
    have happ := atAny_closed w₀ c
    refine processOpenCommands_resume (fun _ w₁ hmove _ => ?_)
      (fun _ hmove => ⟨c, .same, happ hmove h⟩) fun _ _ hmove => hsame (happ hmove h)
    rw [wp_bind]
    refine wp_mono (deliverInboundMessages_any (happ hmove h) howned) (fun _ w₂ h₂ => ?_)
      fun _ _ => hsame
    rcases h₂ with h₂ | ⟨hshut, _⟩
    · exact wp_mono (returnDeferredCredit_any w₂ h₂) (fun _ _ h' => ⟨c, .same, h'⟩) fun _ _ => hsame
    · cases (hup hopened).symm.trans hshut

theorem processClientStreamCommands_any (h : AtAny w₀ c w) (howned : c.loopOwned)
    (hopen : c.closed = false → c.Forcible) (hclosed : c.closed → c.forced = none) :
    wp processClientStreamCommands (fun _ w' => ∃ c', c.Commanded c' ∧ AtAny w₀ c' w')
      (fun _ w' => ∃ c', c.Interrupted c' ∧ AtAny w₀ c' w') w := by
  have hloop : w.stream.loopOwned := (congrArg Control.loopOwned h.control).trans howned
  refine processClientStreamCommands_wp (atAny_closed w₀ c) h hloop fun w₁ h₁ => ?_
  exact obeyCommands_any (h₁.quiet (.outer .commandsTaken) rfl) howned hopen hclosed

/-! ## Settled controls -/

/-- The control of a stream that its first wake has submitted. -/
def Control.submitted (c : Control) (id : ℕ) : Control :=
  { c with woken := true, entry := c.deadline.or c.entry, streamId := some id, mapped := true }

structure Control.Settled (c : Control) : Prop where
  owned : c.registered = c.loopOwned
  gone : c.loopOwned = false → c.terminal ∧ c.mapped = false
  mapped : c.mapped → c.loopOwned ∧ c.streamId.isSome ∧ c.closed = false ∧ c.stopping = false ∧
    c.connection ≠ .closing ∧ c.connection ≠ .backingOff
  fresh : c.streamId = none → c.forced = none ∧ c.closed = false
  kept : c.loopOwned → c.streamId.isSome → c.mapped ∨ c.closed
  waiting : c.closed → c.loopOwned → c.terminal = false ∧ c.forced = none
  rejected : c.loopOwned → c.terminal → c.mapped ∧ c.forced.isSome
  reset : c.loopOwned → c.forced.isSome → c.rst
  due : c.loopOwned → c.terminal = false → c.closed = false → c.woken → c.rst = false →
    c.entry = c.deadline
  entry : ∀ expiry, c.entry = some expiry → c.deadline = some expiry
  expired : c.loopOwned → c.expired → c.rst
  first : c.streamId.isSome → c.woken
  halted : c.stopping → c.connection = .closing

namespace Control

/-- A stream that has ended and that the loop has let go of. -/
structure Ended (c : Control) : Prop where
  disowned : c.loopOwned = false
  unregistered : c.registered = false
  terminal : c.terminal
  unmapped : c.mapped = false
  fresh : c.streamId = none → c.forced = none ∧ c.closed = false
  removed : c.entry = none
  first : c.streamId.isSome → c.woken
  halted : c.stopping → c.connection = .closing

theorem Ended.settled (h : c.Ended) : c.Settled where
  owned := h.unregistered.trans h.disowned.symm
  gone _ := ⟨h.terminal, h.unmapped⟩
  mapped hmapped := by cases h.unmapped.symm.trans hmapped
  fresh := h.fresh
  kept howned := by cases h.disowned.symm.trans howned
  waiting _ howned := by cases h.disowned.symm.trans howned
  rejected howned := by cases h.disowned.symm.trans howned
  reset howned := by cases h.disowned.symm.trans howned
  due howned := by cases h.disowned.symm.trans howned
  entry expiry hentry := by cases h.removed.symm.trans hentry
  expired howned := by cases h.disowned.symm.trans howned
  first := h.first
  halted := h.halted

namespace Settled

section

variable (h : c.Settled)

include h

theorem listed : c.Listed where
  mapped hmapped := h.owned.trans (h.mapped hmapped).1
  registered hregistered := h.owned.symm.trans hregistered

theorem forcible (hmapped : c.mapped) : c.Forcible where
  live := by
    cases hterminal : c.terminal with
    | false => exact .inl rfl
    | true => exact .inr (h.rejected (h.mapped hmapped).1 hterminal).2
  submitted := (h.mapped hmapped).2.1
  opened := (h.mapped hmapped).2.2.1
  owned := (h.mapped hmapped).1

/-- A mapped stream ends with its connection, whatever was recorded in the event that ended it. -/
theorem stoppedMapped (hmapped : c.mapped) (entry : Option ℕ)
    (forced : Option Status) (rst expired terminal : Bool) :
    (Control.stopped { c with
      entry := entry
      forced := forced
      rst := rst
      expired := expired
      terminal := terminal }).Settled := by
  obtain ⟨_, hsubmitted, _, hrunning, _⟩ := h.mapped hmapped
  have hfresh : c.streamId ≠ none := Option.isSome_iff_ne_none.mp hsubmitted
  refine Ended.settled ?_
  simp only [Control.stopped, hrunning, hmapped, Bool.false_eq_true, if_false, if_true]
  exact ⟨rfl, rfl, rfl, rfl, fun hnone => absurd hnone hfresh, rfl, h.first, fun _ => rfl⟩

theorem failed (hmapped : c.mapped) (entry : Option ℕ)
    (forced : Option Status) (rst expired terminal : Bool) :
    (Control.failed { c with
      entry := entry
      forced := forced
      rst := rst
      expired := expired
      terminal := terminal }).Settled := by
  obtain ⟨howned, hsubmitted, _, hrunning, hclosing, hbacking⟩ := h.mapped hmapped
  have hregistered : c.registered = true := h.owned.trans howned
  have hfresh : c.streamId ≠ none := Option.isSome_iff_ne_none.mp hsubmitted
  rw [Control.failed, if_neg (by simp [hrunning, hclosing, hbacking])]
  split
  · exact h.stoppedMapped hmapped entry forced rst expired terminal
  · refine Ended.settled ?_
    simp only [hregistered]
    exact ⟨rfl, rfl, rfl, rfl, fun hnone => absurd hnone hfresh, rfl, h.first, fun _ => rfl⟩

theorem gaveUp (hunmapped : c.mapped = false) (expired : Bool) :
    Control.Settled { c.gaveUp with expired := expired } :=
  Ended.settled ⟨rfl, rfl, rfl, hunmapped, h.fresh, rfl, h.first, h.halted⟩

theorem stopped : c.stopped.Settled := by
  unfold Control.stopped
  split
  · exact h
  split
  · rename_i hmapped
    have hsubmitted := (h.mapped hmapped).2.1
    exact Ended.settled ⟨rfl, rfl, rfl, rfl,
      fun hnone => absurd hnone (Option.isSome_iff_ne_none.mp hsubmitted), rfl, h.first, fun _ =>
        rfl⟩
  rename_i hunmapped
  split
  · exact Ended.settled
      ⟨rfl, rfl, rfl, eq_false_of_ne_true hunmapped, h.fresh, rfl, h.first, fun _ => rfl⟩
  · exact { h with
      mapped := fun hmapped => absurd hmapped hunmapped
      halted := fun _ => rfl }

theorem sweeps : c.failed.Settled := by
  by_cases hmapped : c.mapped
  · exact h.failed hmapped c.entry c.forced c.rst c.expired c.terminal
  unfold Control.failed
  split
  · exact h
  split
  · exact h.stopped
  split
  · exact Ended.settled ⟨rfl, rfl, rfl, rfl, h.fresh, rfl, h.first, fun _ => rfl⟩
  · exact { h with
      halted := fun _ => rfl
      gone := fun hdisowned => ⟨(h.gone hdisowned).1, rfl⟩
      mapped := nofun
      kept := fun howned hsubmitted => .inr ((h.kept howned hsubmitted).resolve_left hmapped)
      rejected := fun howned hterminal => absurd (h.rejected howned hterminal).1 hmapped }

theorem resetting (hmapped : c.mapped) (forced : Option Status)
    (hforced : c.forced.isSome → forced.isSome) (entry : Option ℕ)
    (hentry : ∀ expiry, entry = some expiry → c.deadline = some expiry) (expired : Bool) :
    Control.Settled
      { c with forced := forced, entry := entry, expired := expired, rst := true } := by
  obtain ⟨howned, hsubmitted, hopened, hconnection⟩ := h.mapped hmapped
  exact { h with
    fresh := fun hnone => absurd hnone (Option.isSome_iff_ne_none.mp hsubmitted)
    waiting := fun hclosed => by cases hopened.symm.trans hclosed
    rejected := fun howned hterminal => (h.rejected howned hterminal).imp_right hforced
    reset := fun _ _ => rfl
    due := nofun
    entry := hentry
    expired := fun _ _ => rfl }

end

variable {c' : Control}

variable (h : c.Settled)

include h

theorem settles (hmapped : c.mapped) (hc' : c.Settles c') : c'.Settled := by
  cases hc' with
  | same => exact h
  | failed => exact h.resetting hmapped _ (fun _ => rfl) c.entry h.entry c.expired

theorem breaks (hmapped : c.mapped) (hc' : c.Breaks c') : c'.failed.Settled := by
  cases hc' with
  | same => exact h.sweeps
  | failed => exact h.failed hmapped c.entry _ c.rst c.expired c.terminal
  | reset => exact h.failed hmapped c.entry _ true c.expired c.terminal

theorem commanded (howned : c.loopOwned) (hsubmitted : c.streamId.isSome)
    (hc' : c.Commanded c') : c'.Settled := by
  have hmapped : c.closed = false → c.mapped := fun hopened =>
    (h.kept howned hsubmitted).resolve_right (by simp [hopened])
  cases hc' with
  | same => exact h
  | gaveUp hclosed =>
    have hunmapped : c.mapped = false := eq_false_of_ne_true fun hmapped =>
      by cases (h.mapped hmapped).2.2.1.symm.trans hclosed
    exact h.gaveUp hunmapped c.expired
  | reset hopened => exact h.resetting (hmapped hopened) c.forced id none nofun c.expired
  | cancel hopened => exact h.resetting (hmapped hopened) _ (fun _ => rfl) none nofun c.expired

theorem interrupted (howned : c.loopOwned) (hsubmitted : c.streamId.isSome)
    (hc' : c.Interrupted c') : c'.failed.Settled := by
  cases hc' with
  | same => exact h.sweeps
  | cancel entry forced hopened =>
    have hmapped := (h.kept howned hsubmitted).resolve_right (by simp [hopened])
    exact h.failed hmapped entry forced c.rst c.expired c.terminal

theorem expires {now : ℕ} (hc' : c.Expires now c') : c'.Settled := by
  cases hc' with
  | pending => exact h
  | stale expiry hentry hstale =>
    refine { h with due := fun howned hlive hopened hwoken hrst => ?_, entry := nofun }
    have hdeadline := h.entry expiry hentry
    have hexpired : c.expired = false := eq_false_of_ne_true fun hset =>
      by cases hrst.symm.trans (h.expired howned hset)
    exact absurd ⟨hdeadline, hexpired, hlive, howned⟩ hstale
  | gaveUp hunmapped =>
    refine h.gaveUp (eq_false_of_ne_true fun hmapped => ?_) true
    obtain ⟨_, hsubmitted, hopened, _⟩ := h.mapped hmapped
    rcases hunmapped with hnone | hclosed
    · exact absurd hnone (Option.isSome_iff_ne_none.mp hsubmitted)
    · cases hopened.symm.trans hclosed
  | reset hmapped => exact h.resetting hmapped _ (fun _ => rfl) none nofun true

theorem draining (hactive : c.connection = .active) :
    Control.Settled { c with connection := .draining } :=
  { h with
    mapped := fun hmapped =>
      have ⟨howned, hsubmitted, hopened, hrunning, _⟩ := h.mapped hmapped
      ⟨howned, hsubmitted, hopened, hrunning, nofun, nofun⟩
    halted := fun hstopping => by cases hactive.symm.trans (h.halted hstopping) }

theorem goesAway {lastStreamId : ℕ} (hc' : c.GoesAway lastStreamId c') : c'.Settled := by
  cases hc' with
  | same => exact h
  | reset hmapped =>
    have hreset := h.resetting hmapped (c.force goAwayStatus).forced (fun _ => rfl) none
      nofun c.expired
    obtain ⟨howned, _, hopened, _⟩ := h.mapped hmapped
    exact { hreset with
      gone := fun hdisowned => by cases hdisowned.symm.trans howned
      waiting := fun hclosed => by cases hopened.symm.trans hclosed
      rejected := fun _ _ => ⟨hmapped, rfl⟩
      due := nofun }
  | gaveUp hnone =>
    refine h.gaveUp (eq_false_of_ne_true fun hmapped => ?_) c.expired
    exact absurd hnone (Option.isSome_iff_ne_none.mp (h.mapped hmapped).2.1)

theorem closed (hmapped : c.mapped) (hlive : c.terminal = false) (hunforced : c.forced = none) :
    Control.Settled { c with mapped := false, closed := true, entry := none } := by
  obtain ⟨howned, hsubmitted, _⟩ := h.mapped hmapped
  exact { h with
    gone := fun hdisowned => by cases hdisowned.symm.trans howned
    mapped := nofun
    fresh := fun hnone => absurd hnone (Option.isSome_iff_ne_none.mp hsubmitted)
    kept := fun _ _ => .inr rfl
    waiting := fun _ _ => ⟨hlive, hunforced⟩
    rejected := fun _ hterminal => by cases hlive.symm.trans hterminal
    due := fun _ _ hopened => Bool.noConfusion hopened
    entry := nofun }

theorem closedEnded (hmapped : c.mapped) (forced : Option Status) (expired : Bool) :
    Control.Settled { c.gaveUp with
      mapped := false, closed := true, forced := forced, expired := expired } :=
  Ended.settled ⟨rfl, rfl, rfl, rfl, fun hnone => absurd hnone
    (Option.isSome_iff_ne_none.mp (h.mapped hmapped).2.1), rfl, h.first, h.halted⟩

theorem submitted (howned : c.loopOwned) (hnew : c.streamId = none)
    (hactive : c.connection = .active) (id : ℕ) : (c.submitted id).Settled := by
  obtain ⟨hunforced, hopened⟩ := h.fresh hnew
  have hrunning : c.stopping = false := eq_false_of_ne_true fun hstopping =>
    by cases hactive.symm.trans (h.halted hstopping)
  have hlive : c.terminal = false := eq_false_of_ne_true fun hterminal =>
    absurd hnew (Option.isSome_iff_ne_none.mp (h.mapped (h.rejected howned hterminal).1).2.1)
  have hentry : c.deadline.or c.entry = c.deadline := by
    cases hdeadline : c.deadline with
    | some => rfl
    | none =>
      cases hentry : c.entry with
      | none => rfl
      | some expiry => cases hdeadline.symm.trans (h.entry expiry hentry)
  exact { h with
    gone := fun hdisowned => by cases hdisowned.symm.trans howned
    mapped := fun _ => ⟨howned, rfl, hopened, hrunning,
      fun hclosing => (by cases hactive.symm.trans hclosing),
      fun hbacking => by cases hactive.symm.trans hbacking⟩
    fresh := nofun
    kept := fun _ _ => .inl rfl
    rejected := fun _ hterminal => by cases hlive.symm.trans hterminal
    due := fun _ _ _ _ _ => hentry
    entry := fun expiry hsome => hentry.symm.trans hsome
    first := fun _ => rfl }

theorem connected (hunmapped : c.mapped = false) (hrunning : c.stopping = false)
    (connection : ConnectionState) (everActive : Bool) :
    Control.Settled { c with connection := connection, everActive := everActive } :=
  { h with
    mapped := fun hmapped => by cases hunmapped.symm.trans hmapped
    halted := fun hstopping => by cases hrunning.symm.trans hstopping }

end Settled

end Control

/-! ## Events -/

def Event.isFrame : Event → Bool
  | .read _ | .beginHeaders _ | .header _ _ | .invalidHeader _ _ | .headersFrame _ | .data _
  | .endStream => true
  | _ => false

def Event.isReceiving : Event → Bool
  | .wake _ _ | .data _ => true
  | _ => false

inductive World.Steps (w : World) : Event → Control → Prop
  | app (action : AppAction) : w.Steps (.app action) w.control
  | asleep (now id : ℕ) : w.Steps (.wake now id) w.control
  | unstarted (now id : ℕ) (howned : w.control.loopOwned) (hnew : w.control.streamId = none)
      (expired : Bool) :
      w.Steps (.wake now id) { w.control.gaveUp with woken := true, expired := expired }
  | started (now id : ℕ) (howned : w.control.loopOwned) (hnew : w.control.streamId = none)
      (hactive : w.control.connection = .active) {c : Control}
      (hcommands : (w.control.submitted id).Commanded c) : w.Steps (.wake now id) c
  | startFailed (now id : ℕ) (howned : w.control.loopOwned) (hnew : w.control.streamId = none)
      (hactive : w.control.connection = .active) {c : Control}
      (hcommands : (w.control.submitted id).Interrupted c) : w.Steps (.wake now id) c.failed
  | commands (now id : ℕ) (howned : w.control.loopOwned) (hsubmitted : w.control.streamId.isSome)
      {c : Control} (hcommands : w.control.Commanded c) : w.Steps (.wake now id) c
  | commandsFailed (now id : ℕ) (howned : w.control.loopOwned)
      (hsubmitted : w.control.streamId.isSome) {c : Control}
      (hcommands : w.control.Interrupted c) : w.Steps (.wake now id) c.failed
  | unmapped (event : Event) (hunmapped : w.control.mapped = false)
      (hframe : event.isFrame ∨ ∃ errorCode now, event = .streamClose errorCode now) :
      w.Steps event w.control
  | frame (event : Event) (hframe : event.isFrame) (hmapped : w.control.mapped) {c : Control}
      (hsettles : w.control.Settles c) : w.Steps event c
  | frameFailed (event : Event) (hframe : event.isFrame) (hmapped : w.control.mapped) {c : Control}
      (hbreaks : w.control.Breaks c) : w.Steps event c.failed
  | closed (errorCode now : ℕ) (hmapped : w.control.mapped) (hwaiting : w.Waiting errorCode now) :
      w.Steps (.streamClose errorCode now)
        { w.control with mapped := false, closed := true, entry := none }
  | closedEnded (errorCode now : ℕ) (hmapped : w.control.mapped) (forced : Option Status)
      (expired : Bool) :
      w.Steps (.streamClose errorCode now) { w.control.gaveUp with
        mapped := false, closed := true, forced := forced, expired := expired }
  | expire (now : ℕ) {c : Control} (hexpires : w.control.Expires now c) : w.Steps (.expire now) c
  | expireFailed (now : ℕ) (hmapped : w.control.mapped) (forced : Option Status) :
      w.Steps (.expire now) (Control.stopped
        { w.control with entry := none, expired := true, forced := forced })
  | goAwayIgnored (lastStreamId : ℕ) : w.Steps (.goAway lastStreamId) w.control
  | goAway (lastStreamId : ℕ) (hactive : w.control.connection = .active) {c : Control}
      (hgoesAway : Control.GoesAway lastStreamId { w.control with connection := .draining } c) :
      w.Steps (.goAway lastStreamId) c
  | goAwayFailed (lastStreamId : ℕ) (hactive : w.control.connection = .active)
      (hmapped : w.control.mapped) :
      w.Steps (.goAway lastStreamId) (Control.failed { w.control.force goAwayStatus with
        connection := .draining, terminal := true, entry := none })
  | transportFailure (reason : String) : w.Steps (.transportFailure reason) w.control.failed
  | stop (reason : String) : w.Steps (.stop reason) w.control.stopped
  | connectionIgnored (next : ConnectionState) : w.Steps (.connection next) w.control
  | connection (next : ConnectionState) (hunmapped : w.control.mapped = false)
      (hrunning : w.control.stopping = false) :
      w.Steps (.connection next) { w.control with
        connection := next, everActive := w.control.everActive || next = .active }

inductive World.Begins (w : World) : World → Prop
  | same : w.Begins w
  | awake : w.Begins w.awake

def Stepped (w : World) (event : Event) (w' : World) : Prop :=
  ∃ c w₁, w.Steps event c ∧ w.Begins w₁ ∧ AtAny w₁ c w'

/-- Where an event leads that does not touch the receiving side. -/
def SteppedOuter (w : World) (event : Event) (w' : World) : Prop :=
  ∃ c, w.Steps event c ∧ At w c w'

theorem SteppedOuter.any (h : SteppedOuter w event w') : Stepped w event w' :=
  have ⟨c, hsteps, hat⟩ := h
  ⟨c, w, hsteps, .same, hat.any⟩

theorem handleTransportFailure_any {reason : String} (h : AtAny w₀ c w) (hlisted : c.Listed) :
    wp (handleTransportFailure reason) (fun _ => AtAny w₀ c.failed) never w :=
  wp_imp (handleTransportFailure_at h.start hlisted) fun _ _ h' => h.then h'

theorem failCallback_at (h : At w₀ c w) (hlisted : c.Listed) :
    wp failCallback (fun _ => At w₀ c.failed) never w := by
  unfold failCallback modifyLog
  rw [wp_modify_bind]
  exact handleTransportFailure_at (h.move .callbackFailed h.control) hlisted

theorem Control.Settled.listedBreaks (h : c.Settled) (hc' : c.Breaks c') : c'.Listed := by
  cases hc' <;> exact ⟨h.listed.mapped, h.listed.registered⟩

theorem Control.Listed.interrupted (h : c.Listed) (hc' : c.Interrupted c') : c'.Listed := by
  cases hc' <;> exact ⟨h.mapped, h.registered⟩

theorem Control.Settled.failed_terminal_of (h : c.Settled) (hmapped : c.mapped)
    (hall : c'.mapped = c.mapped ∧ c'.stopping = c.stopping ∧ c'.connection = c.connection ∧
      c'.registered = c.registered) : c'.failed.terminal := by
  obtain ⟨howned, _, _, hrunning, hclosing, hbacking⟩ := h.mapped hmapped
  have hregistered : c.registered = true := h.owned.trans howned
  obtain ⟨hm, hs, hconn, hr⟩ := hall
  simp only [Control.failed, Control.stopped, hm, hs, hconn, hr, hmapped, hrunning, hclosing,
    hbacking, hregistered, Bool.false_eq_true, or_self, if_false, if_true]
  split <;> rfl

theorem Control.Settled.failed_terminal (h : c.Settled) (hmapped : c.mapped)
    (hbreaks : c.Breaks c') :
    c'.failed.terminal :=
  h.failed_terminal_of hmapped (by cases hbreaks <;> exact ⟨rfl, rfl, rfl, rfl⟩)

theorem Control.failed_closed (h : c.closed) : c.failed.closed := by
  unfold Control.failed Control.stopped
  split_ifs <;> first | exact h | rfl

theorem Control.Settled.interrupted_over (h : c.Settled) (howned : c.loopOwned)
    (hsubmitted : c.streamId.isSome) (hc' : c.Interrupted c') :
    c'.failed.terminal ∨ c'.failed.closed := by
  rcases h.kept howned hsubmitted with hmapped | hclosed
  · exact .inl (h.failed_terminal_of hmapped (by cases hc' <;> exact ⟨rfl, rfl, rfl, rfl⟩))
  · exact .inr (Control.failed_closed (by cases hc' <;> exact hclosed))

theorem onMapped_stepped {x : ClientM Unit} (hframe : event.isFrame) (hbase : w.Base)
    (hsettled : w.control.Settled) (hx : w.control.Forcible → wp x (fun _ => SettledAt w w.control)
      (fun _ => BrokenAt w w.control) w) :
    wp (onMapped x) (fun _ => SteppedOuter w event) never w := by
  unfold onMapped
  rw [wp_get_when]
  refine ⟨fun hmapped => ?_, fun hunmapped =>
    ⟨_, .unmapped event (eq_false_of_ne_true hunmapped) (.inl hframe), .self hbase⟩⟩
  rw [wp_tryCatch]
  refine wp_mono (hx (hsettled.forcible hmapped)) (fun _ w₁ h₁ => ?_) fun _ w₁ h₁ => ?_
  · obtain ⟨c', hsettles, h₁⟩ := h₁
    exact ⟨c', .frame event hframe hmapped hsettles, h₁⟩
  · obtain ⟨c', hbreaks, h₁⟩ := h₁
    exact wp_imp (failCallback_at h₁ (hsettled.listedBreaks hbreaks))
      fun _ _ h₂ => ⟨_, .frameFailed event hframe hmapped hbreaks, h₂⟩

theorem data_stepped (bytes : Bytes) (hbase : w.Base) (hsettled : w.control.Settled) :
    wp (onMapped (onDataChunk bytes)) (fun _ w' => ∃ c, w.Steps (.data bytes) c ∧ AtAny w c w')
      never w := by
  unfold onMapped
  rw [wp_get_when]
  refine ⟨fun hmapped => ?_, fun hunmapped =>
    ⟨_, .unmapped _ (eq_false_of_ne_true hunmapped) (.inl rfl), .self hbase⟩⟩
  rw [wp_tryCatch]
  refine wp_mono (onDataChunk_any bytes (.self hbase) (hsettled.forcible hmapped))
    (fun _ w₁ h₁ => ?_) fun _ w₁ h₁ => ?_
  · obtain ⟨c', hsettles, h₁⟩ := h₁
    exact ⟨c', .frame _ rfl hmapped hsettles, h₁⟩
  · obtain ⟨c', hbreaks, h₁⟩ := h₁
    exact wp_imp (failCallback_at h₁.start (hsettled.listedBreaks hbreaks))
      fun _ _ h₂ => ⟨_, .frameFailed _ rfl hmapped hbreaks, h₁.then h₂⟩

theorem frame_stepped (event : Event) (hframe : event.isFrame) (houter : event.isReceiving = false)
    (hbase : w.Base) (hsettled : w.control.Settled) :
    wp (handleEvent event) (fun _ => SteppedOuter w event) never w := by
  have hself : At w w.control w := .self hbase
  cases event with
  | read outputLength =>
    exact onMapped_stepped hframe hbase hsettled fun hc =>
      wp_ends (readClientStreamData_at outputLength hself hc.owned hc.opened hc.submitted)
        fun _ _ h' => h'.settled
  | beginHeaders kind =>
    exact onMapped_stepped hframe hbase hsettled fun _ =>
      wp_ends (onBeginHeaders_at kind w hself) fun _ _ h' => h'.settled
  | header name value =>
    exact onMapped_stepped hframe hbase hsettled fun hc => onHeader_at name value hself hc
  | invalidHeader nameLength valueLength =>
    exact onMapped_stepped hframe hbase hsettled fun hc =>
      onInvalidHeader_at nameLength valueLength hself hc
  | headersFrame endStream =>
    exact onMapped_stepped hframe hbase hsettled fun hc => onHeadersFrame_at endStream hself hc
  | data => exact Bool.noConfusion houter
  | endStream =>
    exact onMapped_stepped hframe hbase hsettled fun _ =>
      (hself.header { w.stream.headers with remoteEndSeen := true }).settled
  | _ => exact Bool.noConfusion hframe

/-- The control of a submitted stream when a wake comes to its commands. -/
inductive World.Submits (w : World) (id : ℕ) : Control → Prop
  | new (howned : w.control.loopOwned) (hnew : w.control.streamId = none)
      (hactive : w.control.connection = .active) : w.Submits id (w.control.submitted id)
  | old (howned : w.control.loopOwned) (hsubmitted : w.control.streamId.isSome) :
      w.Submits id w.control

structure World.Commands (w : World) (id : ℕ) (w₁ : World) : Prop where
  submits : w.Submits id w₁.control
  moves : Moves w.awake w₁
  base : w₁.Base
  settled : w₁.control.Settled
  owned : w₁.stream.loopOwned
  submitted : w₁.stream.streamId.isSome

theorem World.Commands.forcible (h : w.Commands id w₁) (hopened : w₁.control.closed = false) :
    w₁.control.Forcible :=
  h.settled.forcible ((h.settled.kept h.owned h.submitted).resolve_right (by simp [hopened]))

theorem World.Commands.any (h : w.Commands id w₁) :
    wp processClientStreamCommands
      (fun _ w' => ∃ c', w₁.control.Commanded c' ∧ AtAny w₁ c' w')
      (fun _ w' => ∃ c', w₁.control.Interrupted c' ∧ AtAny w₁ c' w') w₁ :=
  processClientStreamCommands_any (.self h.base) h.owned h.forcible
    fun hclosed => (h.settled.waiting hclosed h.owned).2

/-- A wake starts the stream, which leaves its receiving side alone, and comes to its commands. -/
theorem processStreamWake_wp (now id : ℕ) (hbase : w.Base) (hsettled : w.control.Settled)
    (hasleep : J w) (hunstarted : ∀ expired w', w.control.loopOwned → w.control.streamId = none →
      At w.awake { w.control.gaveUp with woken := true, expired := expired } w' → J w')
    (hcommands : ∀ w₁, w.Commands id w₁ → wp (tryCatch processClientStreamCommands
          fun _ => handleTransportFailure "stream command failed")
        (fun _ => J) never w₁) :
    wp (processStreamWake now id) (fun _ => J) never w := by
  unfold processStreamWake
  rw [wp_get_when]
  refine ⟨fun hqueued => ?_, fun _ => hasleep⟩
  have howned : w.control.loopOwned := hbase.wake hqueued
  have hwoken : At w.awake { w.control with woken := true } w.awake := .self hbase.awake
  rw [wp_modify_bind, wp_get_bind]
  dsimp only
  rw [wp_ite]
  refine ⟨fun hnew => ?_, fun hsubmitted => ?_⟩
  · refine wp_seq (startStream_at now id hwoken howned hnew (hsettled.fresh hnew).1)
      fun submitted w₁ h₁ => ?_
    rw [wp_when]
    rcases h₁ with ⟨rfl, hactive, h₁⟩ | ⟨rfl, expired, h₁⟩
    · have hcontrol : w₁.control = w.control.submitted id := h₁.control
      refine ⟨fun _ => hcommands w₁
        { submits := hcontrol ▸ .new howned hnew hactive
          moves := h₁.moves
          base := h₁.base
          settled := hcontrol ▸ hsettled.submitted howned hnew hactive id
          owned := (congrArg Control.loopOwned hcontrol).trans howned
          submitted := congrArg (fun c : Control => c.streamId.isSome) hcontrol }, ?_⟩
      exact fun hnot => absurd rfl hnot
    · exact ⟨nofun, fun _ => hunstarted expired w₁ howned hnew h₁⟩
  · have hsubmitted : w.control.streamId.isSome := Option.isSome_iff_ne_none.mpr hsubmitted
    have hsame : w.awake.control = w.control := by
      show { w.control with woken := true } = w.control
      rw [← hsettled.first hsubmitted]
    rw [wp_bind, wp_pure, wp_when]
    refine ⟨fun _ => hcommands w.awake
      { submits := hsame ▸ .old howned hsubmitted
        moves := .refl
        base := hbase.awake
        settled := hsame ▸ hsettled
        owned := howned
        submitted := hsubmitted }, fun hnot => absurd rfl hnot⟩

theorem World.Commands.tryCatch (h : w.Commands id w₁) {K : World → Prop}
    (hx : wp processClientStreamCommands (fun _ => J) (fun _ => K) w₁)
    (hfail : ∀ {c' : Control} {w₂ w₃ : World}, w₁.control.Interrupted c' → K w₂ →
      At w₂ c'.failed w₃ → J w₃) :
    wp (tryCatch processClientStreamCommands fun _ =>
      handleTransportFailure "stream command failed")
      (fun _ => J) never w₁ := by
  rw [wp_tryCatch]
  refine wp_mono (wp_and hx h.any) (fun _ _ h₂ => h₂.1) fun _ w₂ h₂ => ?_
  obtain ⟨hw₂, c', hc', hat⟩ := h₂
  exact wp_imp (handleTransportFailure_at hat.start (h.settled.listed.interrupted hc'))
    fun _ w₃ h₃ => hfail hc' hw₂ h₃

theorem World.Submits.commanded {now : ℕ} {c₁ : Control} (h : w.Submits id c₁)
    (hcommands : c₁.Commanded c) : w.Steps (.wake now id) c := by
  cases h with
  | new howned hnew hactive => exact .started now id howned hnew hactive hcommands
  | old howned hsubmitted => exact .commands now id howned hsubmitted hcommands

theorem World.Submits.interrupted {now : ℕ} {c₁ : Control} (h : w.Submits id c₁)
    (hcommands : c₁.Interrupted c) : w.Steps (.wake now id) c.failed := by
  cases h with
  | new howned hnew hactive => exact .startFailed now id howned hnew hactive hcommands
  | old howned hsubmitted => exact .commandsFailed now id howned hsubmitted hcommands

theorem wake_stepped (now id : ℕ) (hbase : w.Base) (hsettled : w.control.Settled) :
    wp (processStreamWake now id) (fun _ => Stepped w (.wake now id)) never w := by
  refine processStreamWake_wp now id hbase hsettled ⟨_, w, .asleep now id, .same, .self hbase⟩
    (fun expired w' howned hnew h' =>
      ⟨_, w.awake, .unstarted now id howned hnew expired, .awake, h'.any⟩) fun w₁ h₁ => ?_
  have hstart : AtAny w.awake w₁.control w₁ := ⟨h₁.moves.any, rfl, h₁.base⟩
  rw [wp_tryCatch]
  refine wp_mono (processClientStreamCommands_any hstart h₁.owned h₁.forcible fun hclosed =>
    (h₁.settled.waiting hclosed h₁.owned).2) (fun _ w₂ h₂ => ?_) fun _ w₂ h₂ => ?_
  · obtain ⟨c', hc', h₂⟩ := h₂
    exact ⟨c', w.awake, h₁.submits.commanded hc', .awake, h₂⟩
  · obtain ⟨c', hc', h₂⟩ := h₂
    exact wp_imp (handleTransportFailure_any h₂ (h₁.settled.listed.interrupted hc'))
      fun _ _ h₃ => ⟨_, w.awake, h₁.submits.interrupted hc', .awake, h₃⟩

theorem close_stepped (errorCode now : ℕ) (hbase : w.Base) (hsettled : w.control.Settled) :
    wp (onMapped (onStreamClose errorCode now))
      (fun _ => SteppedOuter w (.streamClose errorCode now))
      never w := by
  unfold onMapped
  rw [wp_get_when]
  refine ⟨fun hmapped => ?_, fun hunmapped =>
    ⟨_, .unmapped _ (eq_false_of_ne_true hunmapped) (.inr ⟨errorCode, now, rfl⟩), .self hbase⟩⟩
  have hc := hsettled.forcible hmapped
  rw [wp_tryCatch]
  refine wp_ends (onStreamClose_at errorCode now (.self hbase) hmapped (hsettled.mapped hmapped).1
    hc.live hc.submitted) fun _ w₁ h₁ => ?_
  rcases h₁ with ⟨forced, expired, h₁⟩ | ⟨h₁, hwaiting⟩
  · exact ⟨_, .closedEnded errorCode now hmapped forced expired, h₁⟩
  · exact ⟨_, .closed errorCode now hmapped hwaiting, h₁⟩

theorem expire_stepped (now : ℕ) (hbase : w.Base) (hsettled : w.control.Settled) :
    wp (handleEvent (.expire now)) (fun _ => SteppedOuter w (.expire now)) never w := by
  have hunforced : w.control.streamId = none ∨ w.control.closed → w.control.loopOwned →
      w.control.forced = none := fun hgone howned =>
    hgone.elim (fun hnone => (hsettled.fresh hnone).1) fun hclosed =>
      (hsettled.waiting hclosed howned).2
  unfold handleEvent
  rw [wp_tryCatch]
  refine wp_mono (expireDeadlines_at now (.self hbase) hunforced hsettled.kept)
    (fun _ w₁ h₁ => ?_) fun _ w₁ h₁ => ?_
  · obtain ⟨c', hc', h₁⟩ := h₁
    exact ⟨c', .expire now hc', h₁⟩
  · obtain ⟨forced, hmapped, h₁⟩ := h₁
    exact wp_imp (beginStop_at h₁ ⟨hsettled.listed.mapped, hsettled.listed.registered⟩)
      fun _ _ h₂ => ⟨_, .expireFailed now hmapped forced, h₂⟩

theorem goAway_stepped (lastStreamId : ℕ) (hbase : w.Base) (hsettled : w.control.Settled) :
    wp (handleEvent (.goAway lastStreamId)) (fun _ => SteppedOuter w (.goAway lastStreamId))
      never w := by
  unfold handleEvent onGoAway
  rw [wp_tryCatch, wp_get_when]
  refine ⟨fun hactive => ?_, fun _ => ⟨_, .goAwayIgnored lastStreamId, .self hbase⟩⟩
  have hdraining : At w { w.control with connection := .draining }
      { w with connection := .draining } :=
    (At.self hbase).move (.connection .draining w.stopping w.everActive) rfl
  have hsettled' := hsettled.draining hactive
  rw [wp_modify_bind]
  refine wp_mono (terminalizeStreamsForGoAway_at lastStreamId hdraining hsettled'.listed
    hsettled'.forcible fun hnone => (hsettled'.fresh hnone).1) (fun _ w₁ h₁ => ?_) fun _ w₁ h₁ => ?_
  · obtain ⟨c', hc', h₁⟩ := h₁
    exact ⟨c', .goAway lastStreamId hactive hc', h₁⟩
  · obtain ⟨hmapped, h₁⟩ := h₁
    exact wp_imp (handleTransportFailure_at h₁ ⟨hsettled.listed.mapped, hsettled.listed.registered⟩)
      fun _ _ h₂ => ⟨_, .goAwayFailed lastStreamId hactive hmapped, h₂⟩

theorem changeConnection_stepped (next : ConnectionState) (hbase : w.Base) :
    wp (changeConnection next) (fun _ => SteppedOuter w (.connection next)) never w := by
  unfold changeConnection
  rw [wp_get_when, wp_modify]
  refine ⟨fun hfree => ?_, fun _ => ⟨_, .connectionIgnored next, .self hbase⟩⟩
  refine ⟨_, .connection next (eq_false_of_ne_true hfree.1) (eq_false_of_ne_true hfree.2.1), ?_⟩
  exact (At.self hbase).move
    (.connection next w.stopping (w.everActive || decide (next = .active))) rfl

theorem handleEvent_outer (event : Event) (houter : event.isReceiving = false) (hbase : w.Base)
    (hsettled : w.control.Settled) :
    wp (handleEvent event) (fun _ => SteppedOuter w event) never w := by
  cases event with
  | app action =>
    exact wp_imp (perform_ends (at_closed w w.control) false action w (.self hbase))
      fun _ _ h' => ⟨_, .app action, h'⟩
  | wake => exact Bool.noConfusion houter
  | streamClose errorCode now => exact close_stepped errorCode now hbase hsettled
  | expire now => exact expire_stepped now hbase hsettled
  | goAway lastStreamId => exact goAway_stepped lastStreamId hbase hsettled
  | transportFailure reason =>
    exact wp_imp (handleTransportFailure_at (.self hbase) hsettled.listed)
      fun _ _ h' => ⟨_, .transportFailure reason, h'⟩
  | stop reason =>
    exact wp_imp (beginStop_at (.self hbase) hsettled.listed) fun _ _ h' => ⟨_, .stop reason, h'⟩
  | connection next => exact changeConnection_stepped next hbase
  | _ => exact frame_stepped _ rfl houter hbase hsettled

theorem handleEvent_stepped (event : Event) (hbase : w.Base) (hsettled : w.control.Settled) :
    wp (handleEvent event) (fun _ => Stepped w event) never w := by
  cases hreceiving : event.isReceiving with
  | false => exact wp_imp (handleEvent_outer event hreceiving hbase hsettled) fun _ _ h => h.any
  | true =>
    cases event with
    | wake now id => exact wake_stepped now id hbase hsettled
    | data bytes =>
      exact wp_imp (data_stepped bytes hbase hsettled)
        fun _ _ ⟨c, hsteps, hat⟩ => ⟨c, w, hsteps, .same, hat⟩
    | _ => exact Bool.noConfusion hreceiving

theorem step_outer (event : Event) (houter : event.isReceiving = false) (hbase : w.Base)
    (hsettled : w.control.Settled) : SteppedOuter w event (step w event) :=
  exec_of_wp (wp_ends (handleEvent_outer event houter hbase hsettled) fun _ _ h => h)

theorem step_stepped (event : Event) (hbase : w.Base) (hsettled : w.control.Settled) :
    Stepped w event (step w event) :=
  exec_of_wp (wp_ends (handleEvent_stepped event hbase hsettled) fun _ _ h => h)

theorem World.Steps.settled (hsettled : w.control.Settled) (hsteps : w.Steps event c) :
    c.Settled := by
  cases hsteps with
  | app | asleep | unmapped | goAwayIgnored | connectionIgnored => exact hsettled
  | unstarted now id howned hnew expired =>
    have hgone := hsettled.gaveUp (eq_false_of_ne_true fun hmapped =>
      absurd hnew (Option.isSome_iff_ne_none.mp (hsettled.mapped hmapped).2.1)) expired
    exact { hgone with due := fun howned => Bool.noConfusion howned, first := fun _ => rfl }
  | started now id howned hnew hactive hcommands =>
    exact (hsettled.submitted howned hnew hactive id).commanded howned rfl hcommands
  | startFailed now id howned hnew hactive hcommands =>
    exact (hsettled.submitted howned hnew hactive id).interrupted howned rfl hcommands
  | commands now id howned hsubmitted hcommands =>
    exact hsettled.commanded howned hsubmitted hcommands
  | commandsFailed now id howned hsubmitted hcommands =>
    exact hsettled.interrupted howned hsubmitted hcommands
  | frame event hframe hmapped hsettles => exact hsettled.settles hmapped hsettles
  | frameFailed event hframe hmapped hbreaks => exact hsettled.breaks hmapped hbreaks
  | closed errorCode now hmapped hwaiting =>
    exact hsettled.closed hmapped hwaiting.live hwaiting.unforced
  | closedEnded errorCode now hmapped forced expired =>
    exact hsettled.closedEnded hmapped forced expired
  | expire now hexpires => exact hsettled.expires hexpires
  | expireFailed now hmapped forced =>
    exact hsettled.stoppedMapped hmapped none forced w.control.rst true w.control.terminal
  | goAway lastStreamId hactive hgoesAway => exact (hsettled.draining hactive).goesAway hgoesAway
  | goAwayFailed lastStreamId hactive hmapped =>
    exact (hsettled.draining hactive).failed hmapped none _ _ _ true
  | transportFailure => exact hsettled.sweeps
  | stop => exact hsettled.stopped
  | connection next hunmapped hrunning => exact hsettled.connected hunmapped hrunning next _

structure World.Stable (w : World) : Prop where
  base : w.Base
  settled : w.control.Settled

theorem AnyMoves.base (h : AnyMoves w w') (hbase : w.Base) : w'.Base := by
  induction h with
  | refl => exact hbase
  | tail _ hmove ih => exact hmove.base ih

theorem World.Stable.step (h : w.Stable) (event : Event) : (step w event).Stable := by
  obtain ⟨c, w₁, hsteps, hbegins, hat⟩ := step_stepped event h.base h.settled
  exact ⟨hat.base, hat.control ▸ hsteps.settled h.settled⟩

theorem World.IsOpened.control (h : w.IsOpened) : w.control =
    { loopOwned := true, registered := true, mapped := false, terminal := false, closed := false
      streamId := none, forced := none, rst := false, deadline := w.stream.deadline, entry := none
      expired := false, woken := false, connection := w.connection, stopping := false
      reconnect := w.reconnect, everActive := w.everActive } := by
  unfold World.control
  rw [h.stream, h.registered, h.unmapped, h.running, h.log]
  rfl

theorem World.IsOpened.stable (h : w.IsOpened) : w.Stable where
  base :=
    { unended := fun _ event hmem => by simp [h.log] at hmem
      ended := by rw [h.stream]; exact nofun
      owned := by rw [h.stream]; rfl
      wake := by rw [h.stream]; exact fun _ => rfl
      failure := by rw [h.stream]; exact nofun }
  settled := by
    rw [h.control]
    exact
      { owned := rfl, gone := nofun, mapped := nofun, fresh := fun _ => ⟨rfl, rfl⟩, kept := nofun
        waiting := nofun, rejected := nofun, reset := nofun, due := nofun, entry := nofun
        expired := nofun, first := nofun, halted := nofun }

structure Invariant (I : World → Prop) : Prop where
  move : ∀ {w w' : World}, AnyMove w w' → w.Base → I w → I w'
  awake : ∀ {w : World}, I w → I w.awake

namespace Invariant

variable {I : World → Prop}

theorem moves (hI : Invariant I) {w' : World} (h : AnyMoves w w') (hbase : w.Base) (hw : I w) :
    w'.Base ∧ I w' := by
  induction h with
  | refl => exact ⟨hbase, hw⟩
  | tail _ hmove ih => exact ⟨hmove.base ih.1, hI.move hmove ih.1 ih.2⟩

theorem step (hI : Invariant I) (h : w.Stable) (event : Event) (hw : I w) : I (step w event) :=
  have ⟨_, _, _, hbegins, hat⟩ := step_stepped event h.base h.settled
  match hbegins with
  | .same => (hI.moves hat.moves h.base hw).2
  | .awake => (hI.moves hat.moves h.base.awake (hI.awake hw)).2

theorem run (hI : Invariant I) (h : w.Stable) (events : List Event) (hw : I w) :
    I (Run.final Client.step w events) :=
  (Run.invariant_always (I := fun w => w.Stable ∧ I w)
    (fun _ event hw => ⟨hw.1.step event, hI.step hw.1 event hw.2⟩) events ⟨h, hw⟩).2

end Invariant

end GrpcLite.Client
