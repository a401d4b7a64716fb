import GrpcLite.Client.Steps
import GrpcLite.Client.OperationSteps

/-!
# Flow-control credit on the client

The connection's credit for a chunk is returned as soon as the decoder has taken or refused it.
The stream's credit is returned once the chunk has been handed on, or when the application resumes.
A unary call collects its response, so it returns both at once.
-/

namespace GrpcLite.Client

open Prog

/-- Nothing has ended or refused the stream: no recorded outcome, no reset and no close. -/
def World.Undisturbed (w : World) : Prop :=
  w.stream.forcedStatus = none ∧ w.stream.rstSubmitted = false ∧
    w.stream.transportClosed = false ∧ w.stream.terminal = false ∧
    w.stream.responseHeadersTooLarge = false

instance (w : World) : Decidable w.Undisturbed := inferInstanceAs (Decidable (_ ∧ _))

/-- What was received is what was returned, what waits for a resume and what is in hand: `owed` to
the connection and `chunk` to the stream.  While the loop resumes, an unpaused stream may have
deferred credit. -/
structure World.Credited (owed chunk : ℕ) (resuming : Prop) (w : World) : Prop where
  connection : w.log.callbackFailed = false →
    w.log.connectionCredit + owed = w.log.received.length
  connection_le : w.log.connectionCredit + owed ≤ w.log.received.length
  stream_le : w.log.streamCredit + w.stream.deferredStreamCredit + chunk ≤ w.log.received.length
  whole : w.Undisturbed →
    w.log.streamCredit + w.stream.deferredStreamCredit + chunk = w.log.received.length
  opened : w.Undisturbed → w.stream.receivePaused = false →
    w.stream.deferredStreamCredit = 0 ∨ resuming

variable {w w' : World} {owed chunk : ℕ} {resuming : Prop}

/-! ## What the moves keep -/

theorem AppMove.credited (hmove : AppMove w w') (h : w.Credited owed chunk resuming) :
    w'.Credited owed chunk resuming := by
  cases hmove <;> exact { h with }

theorem credited_closed : AppClosed (World.Credited owed chunk resuming) :=
  fun _ _ hmove h => hmove.credited h

theorem World.Credited.disturbed (h : w.Credited owed chunk resuming) (hover : ¬w.Undisturbed)
    {resuming' : Prop} : w.Credited owed 0 resuming' :=
  { h with
    stream_le := (Nat.le_add_right _ _).trans h.stream_le
    whole := fun hcalm => absurd hcalm hover
    opened := fun hcalm => absurd hcalm hover }

theorem Move.credited (hmove : Move w w') (h : w.Credited owed chunk resuming) :
    w'.Credited owed chunk resuming := by
  have hterminal : World.Credited owed chunk resuming
      { w with stream := { w.stream with terminal := true } } :=
    { h with
      whole := fun hcalm => absurd hcalm.2.2.2.1 nofun
      opened := fun hcalm => absurd hcalm.2.2.2.1 nofun }
  cases hmove with
  | app hmove => exact hmove.credited h
  | terminate hlive happ => exact credited_closed.moves happ hterminal
  | terminateCall outcome hlive happ => exact { credited_closed.moves happ hterminal with }
  | close errorCode hmapped happ =>
    have hclosed : World.Credited owed chunk resuming { w with
        mapped := false
        stream := { w.stream with transportClosed := true, streamError := errorCode } } :=
      { h with
        whole := fun hcalm => absurd hcalm.2.2.1 nofun
        opened := fun hcalm => absurd hcalm.2.2.1 nofun }
    have happed := credited_closed.moves happ hclosed
    have hover := congrArg Control.closed happ.control
    exact { happed with
      whole := fun hcalm => by cases hover.symm.trans hcalm.2.2.1
      opened := fun hcalm => by cases hover.symm.trans hcalm.2.2.1 }
  | cut =>
    exact { h with
      whole := fun hcalm => absurd hcalm.2.2.1 nofun
      opened := fun hcalm => absurd hcalm.2.2.1 nofun }
  | force =>
    exact { h with
      whole := fun hcalm => absurd hcalm.1 nofun
      opened := fun hcalm => absurd hcalm.1 nofun }
  | reset =>
    exact { h with
      whole := fun hcalm => absurd hcalm.2.1 nofun
      opened := fun hcalm => absurd hcalm.2.1 nofun }
  | tooLarge =>
    exact { h with
      whole := fun hcalm => absurd hcalm.2.2.2.2 nofun
      opened := fun hcalm => absurd hcalm.2.2.2.2 nofun }
  | callbackFailed => exact { h with connection := nofun }
  | _ => exact { h with }

theorem Moves.credited (hmoves : Moves w w') (h : w.Credited owed chunk resuming) :
    w'.Credited owed chunk resuming := by
  induction hmoves with
  | refl => exact h
  | tail _ hmove ih => exact hmove.credited ih

theorem credited_delivering : Delivering (World.Credited owed chunk resuming) where
  app := credited_closed
  message _ _ _ h := { h with }
  queue _ h := { h with }
  decode _ _ h := { h with }
  overtaking _ h := { h with }
  pause h := { h with opened := fun _ hunpaused => Bool.noConfusion hunpaused }

theorem failClientStreamOnLoop_credited (failure : Status) (h : w.Credited owed chunk resuming) :
    wp (failClientStreamOnLoop failure) (fun _ => World.Credited owed 0 False)
      (fun _ => World.Credited owed chunk resuming) w := by
  unfold failClientStreamOnLoop modifyStream
  have hforced : World.Credited owed chunk resuming
      { w with stream := w.stream.setForcedStreamStatus failure } :=
    { h with
      whole := fun hcalm => absurd hcalm.1 nofun
      opened := fun hcalm => absurd hcalm.1 nofun }
  rw [wp_modify_bind, wp_get_when]
  refine ⟨fun _ => ?_, fun _ => hforced.disturbed fun hcalm => absurd hcalm.1 nofun⟩
  rw [wp_bind]
  refine external_wp (fun faults hfaults => ?_) fun faults hsome =>
      credited_closed (.env _ fun hnone => absurd hnone hsome) hforced
  rw [wp_modify]
  exact (Move.reset.credited
    (credited_closed (.env { w.env with faults := faults } fun hnone => hfaults hnone)
    hforced)).disturbed
    fun hcalm => absurd hcalm.1 nofun

/-! ## Chunks -/

theorem creditConnection_credited (length : ℕ) (h : w.Credited length chunk resuming) :
    wp (creditConnection length) (fun _ => World.Credited 0 chunk resuming)
      (fun _ => World.Credited length chunk resuming) w := by
  unfold creditConnection modifyLog
  rw [wp_bind]
  refine external_wp (fun faults hfaults => ?_) fun faults hsome =>
      credited_closed (.env _ fun hnone => absurd hnone hsome) h
  rw [wp_modify]
  exact { h with connection := h.connection, connection_le := h.connection_le }

theorem creditStream_credited (length : ℕ) (h : w.Credited 0 length False) :
    wp (creditStream length) (fun _ => World.Credited 0 0 False)
      (fun _ => World.Credited 0 length False) w := by
  unfold creditStream modifyStream modifyLog
  rw [wp_get_bind, wp_ite]
  refine ⟨fun hpaused => ?_, fun hunpaused => ?_⟩
  · split
    · exact h
    · rename_i credit hcredit
      have hsum : w.log.streamCredit + credit + 0 =
          w.log.streamCredit + w.stream.deferredStreamCredit + length := by
        rw [checkedAdd_eq_some hcredit]
        omega
      rw [wp_modify]
      exact { h with
        stream_le := hsum.trans_le h.stream_le
        whole := fun hcalm => hsum.trans (h.whole hcalm)
        opened := fun _ hopen => by cases hpaused.symm.trans hopen }
  · rw [wp_bind]
    refine external_wp (fun faults hfaults => ?_) fun faults hsome =>
      credited_closed (.env _ fun hnone => absurd hnone hsome) h
    have hsum : w.log.streamCredit + length + w.stream.deferredStreamCredit + 0 =
        w.log.streamCredit + w.stream.deferredStreamCredit + length := by omega
    rw [wp_modify]
    exact { h with
      stream_le := hsum.trans_le h.stream_le
      whole := fun hcalm => hsum.trans (h.whole hcalm) }

/-- A chunk whose callback failed has some of its credit unreturned. -/
def World.Uncredited (w : World) : Prop := ∃ owed chunk, w.Credited owed chunk False

theorem onDataFed_credited (length : ℕ) (h : w.Credited length length False) :
    wp (onDataFed length) (fun _ => World.Credited 0 0 False) (fun _ => World.Uncredited) w := by
  unfold onDataFed
  rw [wp_bind]
  refine wp_mono (creditConnection_credited length h) (fun _ w₁ h₁ => ?_) fun _ _ h' => ⟨_, _, h'⟩
  rw [wp_bind, wp_tryCatch, wp_bind]
  refine wp_mono (credited_delivering.decodeAvailableMessages w₁ h₁) (fun _ w₂ h₂ => ?_)
    fun err w₂ h₂ => ?_
  · rw [wp_pure]
    exact wp_mono (creditStream_credited length h₂) (fun _ _ h' => h') fun _ _ h' => ⟨_, _, h'⟩
  · rw [wp_pure]
    exact wp_mono (failClientStreamOnLoop_credited (decodeFailure err) h₂) (fun _ _ h' => h')
      fun _ _ h' => ⟨_, _, h'⟩

theorem World.Credited.received (h : w.Credited 0 0 False) (data : Bytes) :
    World.Credited data.length data.length False
      { w with log := { w.log with received := w.log.received ++ data } } := by
  have hlength : (w.log.received ++ data).length = w.log.received.length + data.length :=
    List.length_append
  refine
    { connection := fun hsound => ?_
      connection_le := ?_
      stream_le := ?_
      whole := fun hcalm => ?_
      opened := h.opened }
  all_goals dsimp only; rw [hlength]
  · exact congrArg (· + data.length) (h.connection hsound)
  · exact Nat.add_le_add_right h.connection_le _
  · exact Nat.add_le_add_right h.stream_le _
  · exact congrArg (· + data.length) (h.whole hcalm)

theorem onDataChunk_credited (data : Bytes) (h : w.Credited 0 0 False) :
    wp (onDataChunk data) (fun _ => World.Credited 0 0 False) (fun _ => World.Uncredited) w := by
  have hreceived := h.received data
  unfold onDataChunk modifyLog modifyStream
  rw [wp_modify_bind, wp_get_bind, wp_ite]
  refine ⟨fun hlarge => ?_, fun _ => ?_⟩
  · have hover : World.Credited data.length 0 False
        { w with log := { w.log with received := w.log.received ++ data } } :=
      hreceived.disturbed fun hcalm => by cases hlarge.symm.trans hcalm.2.2.2.2
    exact wp_mono (creditConnection_credited _ hover) (fun _ _ h' => h') fun _ _ h' => ⟨_, _, h'⟩
  · rw [wp_bind]
    refine drawFault_wp fun oom faults hfaults => ?_
    have hfault := credited_closed (.env { w.env with faults := faults } fun hnone =>
      (hfaults hnone).2)
      hreceived
    split
    · rename_i err decoder _
      rw [wp_modify_bind, wp_bind]
      have hrefused : World.Credited data.length data.length False { w with
          stream := { w.stream with decoder := decoder }
          log := { w.log with received := w.log.received ++ data, refused := true }
          env := { w.env with faults := faults } } := { hfault with }
      refine wp_mono (failClientStreamOnLoop_credited (feedFailure err) hrefused)
        (fun _ w₁ h₁ => ?_) fun _ _ h' => ⟨_, _, h'⟩
      exact wp_mono (creditConnection_credited _ h₁) (fun _ _ h' => h') fun _ _ h' => ⟨_, _, h'⟩
    · rw [wp_modify_bind]
      exact onDataFed_credited _ { hfault with }

theorem data_credited (data : Bytes) (h : w.Stable) (hw : w.Credited 0 0 False) :
    wp (onMapped (onDataChunk data)) (fun _ => World.Credited 0 0 False) never w := by
  unfold onMapped
  rw [wp_get_when]
  refine ⟨fun hmapped => ?_, fun _ => hw⟩
  have hc := h.settled.forcible hmapped
  rw [wp_tryCatch]
  refine wp_mono (wp_and (onDataChunk_credited data hw) (onDataChunk_any data (.self h.base) hc))
    (fun _ _ h₁ => h₁.1) fun _ w₁ h₁ => ?_
  obtain ⟨⟨owed, chunk, hcredited⟩, c', hbreaks, hat⟩ := h₁
  unfold failCallback modifyLog
  rw [wp_modify_bind]
  -- from here on nothing is claimed of the connection's credit, and the stream ends
  have hfailed : World.Credited 0 chunk False
      { w₁ with log := { w₁.log with callbackFailed := true } } :=
    { hcredited with
      connection := nofun
      connection_le := (Nat.le_add_right _ _).trans hcredited.connection_le }
  have hstart : At { w₁ with log := { w₁.log with callbackFailed := true } } c'
      { w₁ with log := { w₁.log with callbackFailed := true } } :=
    ⟨.refl, hat.control, { hat.base with }⟩
  refine wp_imp (handleTransportFailure_at hstart (h.settled.listedBreaks hbreaks))
    fun _ w₂ h₂ => (h₂.moves.credited hfailed).disturbed fun hcalm => ?_
  have hterminal : w₂.stream.terminal := (congrArg Control.terminal h₂.control).trans
    (h.settled.failed_terminal hmapped hbreaks)
  cases hterminal.symm.trans hcalm.2.2.2.1

/-! ## Commands -/

theorem returnDeferredCredit_credited (h : w.Credited 0 0 True)
    (hopened : w.stream.transportClosed = false) :
    wp returnDeferredCredit (fun _ => World.Credited 0 0 False) (fun _ => World.Credited 0 0 True)
      w := by
  unfold returnDeferredCredit
  rw [wp_get_when]
  refine ⟨fun _ => ?_, fun hkept => ?_⟩
  · rw [wp_bind]
    refine external_wp (fun faults hfaults => ?_) fun faults hsome =>
      credited_closed (.env _ fun hnone => absurd hnone hsome) h
    rw [wp_modify]
    exact { h with
      stream_le := h.stream_le
      whole := h.whole
      opened := fun _ _ => .inl rfl }
  · refine { h with opened := fun _ hunpaused => .inl ?_ }
    by_contra hleft
    exact hkept ⟨by simp [canReturnDeferredStreamCredit, hunpaused, hopened], hleft⟩

theorem opened_delivering : Delivering fun w => w.stream.transportClosed = false where
  app _ _ hmove h := (congrArg Control.closed hmove.control).trans h
  message _ _ _ h := h
  queue _ h := h
  decode _ _ h := h
  overtaking _ h := h
  pause h := h

theorem World.Credited.resumes (h : w.Credited 0 0 False) :
    World.Credited 0 0 True { w with stream := { w.stream with receivePaused := false } } :=
  { h with opened := fun _ _ => .inr trivial }

theorem World.Credited.weaken (h : w.Credited 0 0 False) : w.Credited 0 0 True :=
  { h with opened := fun _ _ => .inr trivial }

theorem deliverInboundMessages_closed {c : Control} (h : AtAny w c w) (hw : w.Credited 0 0 False)
    (howned : c.loopOwned) (hclosed : c.closed) :
    wp deliverInboundMessages (fun _ => World.Credited 0 0 False)
      (fun _ => World.Credited 0 0 True) w := by
  have hover : ∀ {w' : World}, w'.control.closed → ¬w'.Undisturbed := fun hset hcalm =>
    by cases hset.symm.trans hcalm.2.2.1
  refine ((atAny_delivering w c).and credited_delivering).deliverInboundMessages
    ⟨h.flow { w.flow with receivePaused := false } .same, hw.resumes⟩
    (fun w₁ h₁ _ hunpaused hempty => ?_) (fun w₁ h₁ => ?_) fun _ _ h' => h'.2
  · refine wp_ends (finalizeRelease_at h₁.1.start hclosed howned (.inl ⟨hunpaused, hempty⟩))
      fun _ w₂ h₂ => (h₂.moves.credited h₁.2).disturbed (hover ?_)
    exact (congrArg Control.closed h₂.control).trans hclosed
  · exact h₁.2.disturbed (hover ((congrArg Control.closed h₁.1.control).trans hclosed))

theorem World.Commands.credited {id : ℕ} {w₀ : World} (h : w₀.Commands id w)
    (hw : w.Credited 0 0 False) :
    wp processClientStreamCommands (fun _ => World.Credited 0 0 False)
      (fun _ => World.Credited 0 0 True) w := by
  have hclosed : AppClosed fun w' => At w w.control w' ∧ w'.Credited 0 0 False :=
    fun _ _ hmove h => ⟨at_closed w w.control hmove h.1, hmove.credited h.2⟩
  refine processClientStreamCommands_wp hclosed ⟨.self h.base, hw⟩ h.owned fun w₁ h₁ => ?_
  obtain ⟨hat, hw₁⟩ := h₁
  have hsame : w₁.stream.transportClosed = w.control.closed := congrArg Control.closed hat.control
  have htaken : w₁.taken.Credited 0 0 False := { hw₁ with }
  have hundated : w₁.taken.undated.Credited 0 0 False := { hw₁ with }
  have hremoved : At w₁.taken.undated { w.control with entry := none } w₁.taken.undated :=
    ⟨.refl, congrArg (fun c : Control => { c with entry := none }) hat.control, { hat.base with }⟩
  refine obeyCommands_wp (fun hshut _ => ?_) (fun hshut _ => ?_) (fun _ => htaken)
    (fun hopened _ resumeData resumeReceive => ?_) fun hopened _ _ _ => ?_
  · have hunforced := (h.settled.waiting (hsame ▸ hshut) h.owned).2
    exact wp_ends (giveUp_unforced hremoved h.owned nofun hunforced)
      fun _ _ h₂ => h₂.moves.credited hundated
  · exact deliverInboundMessages_closed ⟨.refl, hat.control, { hat.base with }⟩ htaken h.owned
      (hsame ▸ hshut)
  · have hc := h.forcible (hsame ▸ hopened)
    refine wp_mono (processOpenCommands_reset _ resumeData resumeReceive hremoved
      { hc with }) (fun _ w₂ h₂ => ?_) fun _ w₂ h₂ => ?_
    · exact h₂.elim (fun h' => h'.moves.credited hundated) fun h' => h'.moves.credited hundated
    · exact (h₂.elim (fun h' => h'.moves.credited hundated)
        fun h' => h'.moves.credited hundated).weaken
  · refine processOpenCommands_resume (fun _ w₂ hmove hstream => ?_)
      (fun _ hmove => hmove.credited htaken) fun _ _ hmove => (hmove.credited htaken).weaken
    rw [wp_bind]
    refine (credited_delivering.and opened_delivering).deliverInboundMessages
      ⟨(hmove.credited htaken).resumes, hstream ▸ hopened⟩
      (fun w₃ h₃ hclosed _ _ => by cases h₃.2.symm.trans hclosed)
      (fun w₃ h₃ => returnDeferredCredit_credited h₃.1 h₃.2) fun _ _ h' => h'.1

theorem wake_credited (now id : ℕ) (h : w.Stable) (hw : w.Credited 0 0 False) :
    wp (processStreamWake now id) (fun _ => World.Credited 0 0 False) never w := by
  have hawake : w.awake.Credited 0 0 False := { hw with }
  refine processStreamWake_wp now id h.base h.settled hw
    (fun expired w' _ _ h' => h'.moves.credited hawake) fun w₁ h₁ => ?_
  refine h₁.tryCatch (h₁.credited (h₁.moves.credited hawake)) fun hc' hw₂ h₃ => ?_
  refine (h₃.moves.credited hw₂).disturbed fun hcalm => ?_
  rcases h₁.settled.interrupted_over h₁.owned h₁.submitted hc' with hterminal | hclosed
  · cases ((congrArg Control.terminal h₃.control).trans hterminal).symm.trans
      hcalm.2.2.2.1
  · cases ((congrArg Control.closed h₃.control).trans hclosed).symm.trans hcalm.2.2.1

/-! ## Runs -/

theorem World.Credited.step (hw : w.Credited 0 0 False) (h : w.Stable) (event : Event) :
    (step w event).Credited 0 0 False := by
  cases hreceiving : event.isReceiving with
  | false =>
    obtain ⟨_, _, hat⟩ := step_outer event hreceiving h.base h.settled
    exact hat.moves.credited hw
  | true =>
    refine exec_of_wp (wp_ends (?_ : wp (handleEvent event) (fun _ => World.Credited 0 0 False)
      never w) fun _ _ h' => h')
    cases event with
    | wake now id => exact wake_credited now id h hw
    | data bytes => exact data_credited bytes h hw
    | _ => exact Bool.noConfusion hreceiving

theorem World.IsOpened.credited (h : w.IsOpened) : w.Credited 0 0 False := by
  have hstream := h.stream
  have hlog := h.log
  exact
    { connection := by rw [hlog]; exact fun _ => rfl
      connection_le := by rw [hlog]; exact le_rfl
      stream_le := by rw [hlog, hstream]; exact le_rfl
      whole := by rw [hlog, hstream]; exact fun _ => rfl
      opened := by rw [hstream]; exact fun _ _ => .inl rfl }

theorem World.IsOpened.always_credited (h : w.IsOpened) (events : List Event) :
    (Run.final Client.step w events).Credited 0 0 False :=
  (Run.invariant_always (I := fun w : World => w.Stable ∧ w.Credited 0 0 False)
    (fun _ event hw => ⟨hw.1.step event, hw.2.step hw.1 event⟩) events ⟨h.stable, h.credited⟩).2

/-! ## Unary calls -/

/-- All credit is returned, unless a callback failed; the stream's is no longer once the response
headers were rejected. -/
structure CreditPart.Balanced (c : CreditPart) : Prop where
  connection : c.callbackFailed = false → c.connectionCredit = c.received.length
  connection_le : c.connectionCredit ≤ c.received.length
  stream_le : c.streamCredit ≤ c.received.length
  stream : c.callbackFailed = false → c.tooLarge = false → c.streamCredit = c.received.length

theorem CreditPart.Balanced.step {c c' : CreditPart} (h : c.Balanced) (hstep : c.Step c') :
    c'.Balanced := by
  have hlength (data : Bytes) : (c.received ++ data).length = c.received.length + data.length :=
    List.length_append
  cases hstep with
  | reject => exact { h with stream := fun _ hset => Bool.noConfusion hset }
  | chunk data =>
    constructor <;> dsimp only <;> rw [hlength]
    · exact fun hcalm => congrArg (· + _) (h.connection hcalm)
    · exact Nat.add_le_add_right h.connection_le _
    · exact Nat.add_le_add_right h.stream_le _
    · exact fun hcalm hfits => congrArg (· + _) (h.stream hcalm hfits)
  | discard data hrejected =>
    constructor <;> dsimp only <;> rw [hlength]
    · exact fun hcalm => congrArg (· + _) (h.connection hcalm)
    · exact Nat.add_le_add_right h.connection_le _
    · exact Nat.le_add_right_of_le h.stream_le
    · exact fun _ hfits => by cases hrejected.symm.trans hfits
  | fail data hconnection hstream =>
    constructor <;> dsimp only
    · exact nofun
    · exact hlength data ▸ hconnection.trans (Nat.add_le_add_right h.connection_le _)
    · exact hlength data ▸ hstream.trans (Nat.add_le_add_right h.stream_le _)
    · exact nofun

theorem Life.Step.balanced {l l' : Life} (hstep : l.Step l') (h : l.credit.Balanced) :
    l'.credit.Balanced := by
  cases hstep with
  | queue | submit | lose => exact h
  | credit hplace hcredit => exact h.step hcredit
  | record hplace hrecorded => cases hrecorded <;> exact h
  | finish hplace hrecorded =>
    cases hrecorded <;> exact h

theorem OperationWorld.IsEnqueued.always_balanced {w : OperationWorld} (h : w.IsEnqueued)
    (events : List Operation.Event) : (Run.final Operation.step w events).credit.Balanced := by
  refine Operation.life_invariant (P := fun l => l.credit.Balanced)
    (fun h hstep => hstep.balanced h) events ?_
  have hlog := h.log
  exact
    { connection := fun _ => by simp [OperationWorld.life, OperationWorld.credit, hlog]
      connection_le := by simp [OperationWorld.life, OperationWorld.credit, hlog]
      stream_le := by simp [OperationWorld.life, OperationWorld.credit, hlog]
      stream := fun _ _ => by simp [OperationWorld.life, OperationWorld.credit, hlog] }

end GrpcLite.Client
