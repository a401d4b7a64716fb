import GrpcLite.Client.Moves

/-!
# Every step is a sequence of moves

The functions of the loop as moves, with the exact control they leave behind.
-/

namespace GrpcLite.Client

open Prog

structure At (w₀ : World) (c : Control) (w : World) : Prop where
  moves : Moves w₀ w
  control : w.control = c
  base : w.Base

variable {w₀ w : World} {c : Control}

theorem At.self (h : w.Base) : At w w.control w := ⟨.refl, rfl, h⟩

variable {w' : World} {outcome : Outcome} {s : ClientStreamState} {oom : Bool} {reason : String}

theorem At.move {c' : Control} (h : At w₀ c w) (hmove : Move w w') (hcontrol : w'.control = c') :
    At w₀ c' w' :=
  ⟨h.moves.tail hmove, hcontrol, hmove.base h.base⟩

theorem At.quiet (h : At w₀ c w) (hmove : Move w w') (hcontrol : w'.control = w.control) :
    At w₀ c w' :=
  h.move hmove (hcontrol.trans h.control)

theorem at_closed (w₀ : World) (c : Control) : AppClosed (At w₀ c) :=
  fun _ _ hmove h => h.quiet (.app hmove) hmove.control

/-! ## Callbacks -/

theorem enabled_iff : s.enabled ↔ s.appOwned ∧ s.appReleased = false ∧
    s.cancelRequested = false ∧ s.terminal = false := by
  simp [ClientStreamState.enabled, and_assoc]

variable {I : World → Prop} {kind : Callback} {code : Code}

theorem callbacksEnabled_wp (hI : AppClosed I) (h : I w) {E : StreamError → World → Prop} :
    wp callbacksEnabled (fun enabled w' => I w' ∧ enabled = w'.stream.enabled) E w := by
  unfold callbacksEnabled
  refine wp_ends_seq (lock_ends hI w h) fun _ w' h' => ?_
  rw [wp_get_bind, wp_pure]
  exact ⟨h', rfl⟩

theorem invokeCallback_ends (hI : AppClosed I) (registered : Bool)
    (hmark : ∀ w, I w → w.stream.enabled → I (w.marked (.callback kind))) :
    Ends I (invokeCallback registered kind) := by
  unfold invokeCallback
  refine .when fun _ w h => ?_
  unfold beginClientCallback
  refine wp_seq (callbacksEnabled_wp hI h) fun enabled w' h' => ?_
  obtain ⟨hw', rfl⟩ := h'
  rw [wp_ite]
  refine ⟨fun henabled => ?_, fun _ => hw'⟩
  rw [wp_bind]
  exact runCallback_wp hI (hmark w' hw' henabled)

theorem invokeCallback_at (registered : Bool) (hkind : kind.isNotice) :
    Ends (At w₀ c) (invokeCallback registered kind) :=
  invokeCallback_ends (at_closed w₀ c) registered fun _ h henabled =>
    h.quiet (.notice kind hkind henabled) rfl

theorem removeStreamDeadline_at (h : At w₀ c w) :
    wp removeStreamDeadline (fun _ => At w₀ { c with entry := none }) never w :=
  h.move (.deadline none) (h.control ▸ rfl)

/-! ## The end of the stream -/

/-- What a report of `outcome` needs to know about a stream that it ends. -/
structure World.Reportable (w : World) (outcome : Outcome) : Prop where
  agrees : w.stream.terminal = false → w.Agrees outcome
  ok : outcome.status.code = .ok → outcome.fromTrailers
  drained : outcome.fromTrailers → w.Drained ∨ w.stream.terminal ∨ w.stream.appReleased

theorem AppMove.drained (hmove : AppMove w w') (h : w.Drained) : w'.Drained := by
  cases hmove <;> exact { h with }

theorem AppMove.agrees (hmove : AppMove w w') (h : w.Agrees outcome) : w'.Agrees outcome := by
  cases hmove <;> exact h

theorem reportable_closed (outcome : Outcome) : AppClosed (World.Reportable · outcome) := by
  intro w w' hmove h
  have hterminal := congrArg Control.terminal hmove.control
  exact
    { agrees := fun hlive => hmove.agrees (h.agrees (hterminal.symm.trans hlive))
      ok := h.ok
      drained := fun htrailers => (h.drained htrailers).imp hmove.drained
        (Or.imp hterminal.trans hmove.released) }

theorem invokeTerminalCallback_at (h : At w₀ c w) (hreport : w.Reportable outcome)
    (hlive : w.stream.terminal = false) :
    wp (when (w.stream.appOwned ∧ ¬w.stream.appReleased) (invokeTerminalCallback outcome))
      (fun _ => At w₀ { c with terminal := true }) never
      { w with stream := { w.stream with terminal := true } } := by
  -- the application has let go by the time it would be told
  have hskip : ∀ w', AppMoves { w with stream := { w.stream with terminal := true } } w' →
      ¬(w'.stream.appOwned ∧ ¬w'.stream.appReleased) → At w₀ { c with terminal := true } w' := by
    intro w' happ hnot
    have howned := (happ.ending (h.base.ending hlive)).owned
    refine h.move (.terminate hlive happ ?_) (happ.control.trans (h.control ▸ rfl))
    cases hreleased : w'.stream.appReleased with
    | true => rfl
    | false => exact absurd ⟨by simpa [hreleased] using howned, by simp [hreleased]⟩ hnot
  rw [wp_when]
  refine ⟨fun hnotify => ?_, fun hnot => hskip _ .refl hnot⟩
  unfold invokeTerminalCallback beginTerminalCallback
  simp only [wp_bind]
  refine wp_imp (lock_ends (appMoves_closed _) _ .refl) fun _ w' happ => ?_
  simp only [wp_get, wp_pure, wp_ite, wp_bind]
  refine ⟨fun hstill => ?_, fun hnot => hskip w' happ (by simpa using hnot)⟩
  simp only [Bool.and_eq_true, Bool.not_eq_eq_eq_not, Bool.not_true] at hstill
  have hdrained : outcome.fromTrailers → w.Drained := by
    intro htrailers
    rcases hreport.drained htrailers with hdrained | hterminal | hreleased
    · exact hdrained
    · cases hlive.symm.trans hterminal
    · have hstays : w'.stream.appReleased :=
        AppClosed.moves (fun _ _ hmove hw => hmove.released hw) happ hreleased
      cases hstill.2.symm.trans hstays
  have hcall := Move.terminateCall outcome hlive happ hstill.1 hstill.2 (hreport.agrees hlive)
    hreport.ok hdrained
  exact runCallback_wp (at_closed _ _) (h.move hcall (happ.control.trans (h.control ▸ rfl)))

theorem terminalizeStream_at (h : At w₀ c w) (hreport : w.Reportable outcome) :
    wp (terminalizeStream outcome) (fun _ => At w₀ c.terminated) never w := by
  let c₁ : Control := { c with entry := if c.loopOwned then none else c.entry }
  have hclosed : AppClosed fun w₁ => At w₀ c₁ w₁ ∧ w₁.Reportable outcome :=
    fun _ _ hmove h' => ⟨at_closed _ _ hmove h'.1, reportable_closed outcome hmove h'.2⟩
  have howned : w.stream.loopOwned = c.loopOwned := congrArg Control.loopOwned h.control
  unfold terminalizeStream modifyStream
  rw [wp_get_bind, wp_bind]
  have hremoved : wp (when w.stream.loopOwned removeStreamDeadline)
      (fun _ w₁ => At w₀ c₁ w₁ ∧ w₁.Reportable outcome) never w := by
    rw [wp_when]
    refine ⟨fun hloop => ⟨h.move (.deadline none) ?_, { hreport with drained := ?_ }⟩, fun hloop =>
      ⟨⟨h.moves, h.control.trans ?_, h.base⟩, hreport⟩⟩
    · simp only [c₁, ← howned, hloop, if_true]
      exact h.control ▸ rfl
    · exact fun htrailers => (hreport.drained htrailers).imp_left fun hdrained => { hdrained with }
    · show c = { c with entry := if c.loopOwned then none else c.entry }
      rw [if_neg (howned ▸ hloop)]
  refine wp_imp hremoved fun _ w₁ h₁ => ?_
  refine wp_seq (lock_ends hclosed w₁ h₁) fun _ w₂ h₂ => ?_
  obtain ⟨hat, hreport₂⟩ := h₂
  rw [wp_get_when]
  refine ⟨fun hlive => ?_, fun hterminal => ⟨hat.moves, hat.control.trans ?_, hat.base⟩⟩
  · rw [wp_modify_bind]
    exact invokeTerminalCallback_at hat hreport₂ (by simpa using hlive)
  · have hset : c.terminal = true :=
      (congrArg Control.terminal hat.control).symm.trans (not_not.mp hterminal)
    simp [c₁, Control.terminated, hset]

theorem releaseStreamLoopOwnership_at (h : At w₀ c w) (howned : c.loopOwned)
    (hterminal : c.terminal) :
    wp releaseStreamLoopOwnership (fun _ => At w₀ c.released) never w := by
  unfold releaseStreamLoopOwnership mark modifyLog destroy mark modifyLog
  refine wp_seq (lock_ends (at_closed w₀ c) w h) fun _ w₁ h₁ => ?_
  have hloop : w₁.stream.loopOwned := (congrArg Control.loopOwned h₁.control).trans howned
  have hended : w₁.stream.terminal := (congrArg Control.terminal h₁.control).trans hterminal
  have hreleased : At w₀ c.released _ := h₁.move (.loopRelease hloop hended) (h₁.control ▸ rfl)
  simp only [wp_bind, wp_modify, wp_get, wp_when]
  cases happ : w₁.stream.appOwned with
  | true =>
    simp only [happ, if_true] at hreleased
    exact ⟨fun hnot => absurd rfl hnot, fun _ => hreleased⟩
  | false =>
    simp only [happ, Bool.false_eq_true, if_false] at hreleased
    refine ⟨fun _ => ?_, fun hnot => absurd Bool.false_ne_true hnot⟩
    simpa only [List.append_assoc, List.singleton_append] using hreleased

/-- What allows a stream to be finalized: nothing is left to hand on, or its outcome is already
settled. -/
def World.Finalizable (w : World) : Prop :=
  (w.stream.receivePaused = false ∧ w.stream.inbound = []) ∨ w.stream.forcedStatus.isSome ∨
    w.stream.terminal ∨ w.stream.appReleased

theorem finalizable_closed : AppClosed World.Finalizable := by
  intro w w' hmove h
  cases hmove with
  | release => exact .inr (.inr (.inr rfl))
  | _ => exact h

theorem notifyRemoteEnd_at :
    Ends (fun w => At w₀ c w ∧ w.Finalizable) notifyRemoteEnd := by
  have hclosed : AppClosed fun w => At w₀ c w ∧ w.Finalizable :=
    fun _ _ hmove h => ⟨at_closed _ _ hmove h.1, finalizable_closed hmove h.2⟩
  unfold notifyRemoteEnd modifyStream
  refine .bind .get fun s => .when fun _ => .bind (.modify fun w h => ⟨?_, h.2⟩) fun _ => ?_
  · exact h.1.quiet (.header { w.stream.headers with remoteEndCalled := true }) rfl
  · exact invokeCallback_ends hclosed _ fun w h henabled =>
      ⟨h.1.quiet (.notice .remoteEnd rfl henabled) rfl, h.2⟩

theorem httpStatusCode_ne_ok (httpStatus : ℕ) : httpStatusCode httpStatus ≠ .ok := by
  unfold httpStatusCode
  split <;> decide

theorem streamErrorStatus_ne_ok (errorCode : ℕ) : (streamErrorStatus errorCode).code ≠ .ok := by
  unfold streamErrorStatus Status.init
  split
  · nofun
  · split <;> nofun

theorem finalOutcome_fromTrailers (h : (finalOutcome s oom).fromTrailers) :
    s.forcedStatus = none ∧ s.streamError = noError ∧ s.decoder.finish = .ok () := by
  unfold finalOutcome at h
  split at h
  · cases h
  · rename_i hforced
    split at h
    · cases h
    rename_i hregular
    -- every way to an error of the response itself
    iterate 8
      split at h
      · cases h
    rename_i hfinish
    exact ⟨hforced, not_not.mp hregular, hfinish⟩

theorem finalOutcome_ok (hforced : ∀ forced, s.forcedStatus = some forced → forced.code ≠ .ok)
    (h : (finalOutcome s oom).status.code = .ok) : (finalOutcome s oom).fromTrailers := by
  revert h
  unfold finalOutcome
  split
  · rename_i forced hrecorded
    exact fun h => absurd h (hforced forced hrecorded)
  · split
    · exact fun h => absurd h (streamErrorStatus_ne_ok _)
    iterate 2
      split
      · nofun
    split
    · exact fun h => absurd h (httpStatusCode_ne_ok _)
    iterate 5
      split
      · nofun
    split
    · exact fun _ => rfl
    · split
      · nofun
      · exact fun _ => rfl

theorem reportable_final (hbase : w.Base) (hclosed : w.stream.transportClosed)
    (hfinal : w.Finalizable) : w.Reportable (finalOutcome w.stream oom) where
  agrees _ := by
    refine .inl fun forced hforced => ?_
    simp [finalOutcome, hforced]
  ok := finalOutcome_ok hbase.failure
  drained htrailers := by
    obtain ⟨hunforced, hregular, hfinish⟩ := finalOutcome_fromTrailers htrailers
    rcases hfinal with ⟨hpaused, hempty⟩ | hforced | hended
    · exact .inl ⟨hclosed, hregular, hunforced, hfinish, hpaused, hempty⟩
    · simp [hunforced] at hforced
    · exact .inr hended

section

variable (h : At w₀ c w)

include h

theorem finalizeClientStream_at (hclosed : c.closed) (hfinal : w.Finalizable) :
    wp finalizeClientStream (fun _ => At w₀ c.terminated) never w := by
  have hend : ∀ oom w', At w₀ c w' → w'.Finalizable →
      wp (terminalizeStream (finalOutcome w'.stream oom)) (fun _ => At w₀ c.terminated)
        never w' := fun oom w' h' hfinal' =>
    terminalizeStream_at h' (reportable_final h'.base
      ((congrArg Control.closed h'.control).trans hclosed) hfinal')
  unfold finalizeClientStream
  refine wp_seq (notifyRemoteEnd_at w ⟨h, hfinal⟩) fun _ w₁ h₁ => ?_
  rw [wp_get_bind]
  dsimp only
  rw [wp_ite, wp_bind, wp_bind, wp_pure]
  refine ⟨fun _ => drawFault_wp fun oom faults hfaults => ?_, fun _ => hend false w₁ h₁.1 h₁.2⟩
  exact hend oom { w₁ with env := { w₁.env with faults := faults } }
    (h₁.1.quiet (.app (.env _ fun hnone => (hfaults hnone).2)) rfl) h₁.2

theorem finalizeRelease_at (hclosed : c.closed) (howned : c.loopOwned) (hfinal : w.Finalizable) :
    wp (do finalizeClientStream; releaseStreamLoopOwnership) (fun _ => At w₀ c.gaveUp) never w := by
  refine wp_seq (finalizeClientStream_at h hclosed hfinal) fun _ w₁ h₁ => ?_
  rw [← Control.gaveUp_eq howned]
  exact releaseStreamLoopOwnership_at h₁ howned rfl

theorem giveUp_at (howned : c.loopOwned) (hcode : code ≠ .ok)
    (hagrees : w.stream.terminal = false → w.Agrees ⟨.init code reason, false⟩) :
    wp (giveUp code reason) (fun _ => At w₀ c.gaveUp) never w := by
  have hreport : w.Reportable ⟨.init code reason, false⟩ :=
    { agrees := hagrees, ok := fun hok => absurd hok hcode, drained := nofun }
  unfold giveUp
  refine wp_seq (terminalizeStream_at h hreport) fun _ w₁ h₁ => ?_
  rw [← Control.gaveUp_eq howned]
  exact releaseStreamLoopOwnership_at h₁ howned rfl

theorem giveUp_unforced (howned : c.loopOwned) (hcode : code ≠ .ok) (hforced : c.forced = none) :
    wp (giveUp code reason) (fun _ => At w₀ c.gaveUp) never w := by
  refine giveUp_at h howned hcode fun _ => .inl fun forced hrecorded => ?_
  have hnone : w.stream.forcedStatus = none := (congrArg Control.forced h.control).trans hforced
  rw [hnone] at hrecorded
  cases hrecorded

end

/-! ## The end of the connection -/

theorem sweep_at (h : At w₀ c w) (howned : c.loopOwned) :
    wp (do noteSweep; giveUp .unavailable reason) (fun _ => At w₀ c.gaveUp) never w := by
  unfold noteSweep modifyLog
  rw [wp_bind, wp_get_when, wp_modify]
  refine ⟨fun hlive => ?_, fun hterminal => ?_⟩
  · refine giveUp_at (h.quiet (.swept (by simpa using hlive)) rfl) howned nofun fun _ => .inr ?_
    exact List.mem_append_right _ (List.mem_singleton_self _)
  · exact giveUp_at h howned nofun fun hlive => absurd hlive (by simpa using hterminal)

/-- What the ends of the connection find: they sweep exactly the registered streams. -/
structure Control.Listed (c : Control) : Prop where
  mapped : c.mapped → c.registered
  registered : c.registered → c.loopOwned

theorem beginStop_at (h : At w₀ c w) (hlisted : c.Listed) :
    wp (beginStop reason) (fun _ => At w₀ c.stopped) never w := by
  unfold beginStop
  rw [wp_get_when]
  have hstopping : w.stopping = c.stopping := congrArg Control.stopping h.control
  refine ⟨fun hrunning => ?_, fun hstopped => ?_⟩
  swap
  · rw [hstopping, not_not] at hstopped
    rw [Control.stopped, if_pos hstopped]
    exact h
  rw [hstopping] at hrunning
  have hclosing : At w₀ { c with stopping := true, connection := .closing }
      { w with stopping := true, connection := .closing } :=
    h.move (.connection .closing true w.everActive) (h.control ▸ rfl)
  have hmap : w.mapped = c.mapped := congrArg Control.mapped h.control
  have hreg : w.registered = c.registered := congrArg Control.registered h.control
  rw [wp_modify_bind, wp_get_bind, wp_bind, wp_when]
  refine ⟨fun hmapped => ?_, fun hunmapped => ?_⟩
  · have hregistered := hlisted.mapped (hmap ▸ hmapped)
    have hclosed : At w₀
        { c with stopping := true, connection := .closing, mapped := false, closed := true }
        { w with
          stopping := true
          connection := .closing
          mapped := false
          stream := { w.stream with transportClosed := true, streamError := cancelCode } } :=
      hclosing.move (.cut hmapped) (h.control ▸ rfl)
    rw [wp_modify_bind]
    refine wp_imp (sweep_at hclosed (hlisted.registered hregistered)) fun _ w₁ h₁ => ?_
    have hgone : w₁.registered = false := congrArg Control.registered h₁.control
    rw [wp_get_when]
    refine ⟨fun hstill => (by cases hgone.symm.trans hstill), fun _ => ?_⟩
    rw [Control.stopped, if_neg hrunning, if_pos (hmap ▸ hmapped)]
    exact h₁
  · rw [wp_get_when]
    rw [Control.stopped, if_neg hrunning, if_neg (hmap ▸ hunmapped)]
    refine ⟨fun hregistered => ?_, fun hunregistered => ?_⟩
    · rw [if_pos (hreg ▸ hregistered)]
      exact sweep_at hclosing (hlisted.registered (hreg ▸ hregistered))
    · rw [if_neg (hreg ▸ hunregistered)]
      exact hclosing

theorem canReconnect_control : w.canReconnect = w.control.canReconnect := rfl

theorem handleTransportFailure_at (h : At w₀ c w) (hlisted : c.Listed) :
    wp (handleTransportFailure reason) (fun _ => At w₀ c.failed) never w := by
  obtain rfl := h.control
  unfold handleTransportFailure
  rw [wp_get_when]
  refine ⟨fun hup => ?_, fun hdown => ?_⟩
  swap
  · rw [Control.failed, if_pos]
    · exact h
    · show w.stopping ∨ w.connection = .closing ∨ w.connection = .backingOff
      by_contra hnot
      exact hdown (by simpa [not_or] using hnot)
  have hcond : ¬(w.control.stopping ∨ w.control.connection = .closing ∨
      w.control.connection = .backingOff) := by
    rintro (hstop | hclosing | hbacking)
    · exact hup.1 hstop
    · exact hup.2.1 hclosing
    · exact hup.2.2 hbacking
  rw [Control.failed, if_neg hcond, wp_ite]
  refine ⟨fun hfinal => ?_, fun hretry => ?_⟩
  · rw [if_pos (by simpa [canReconnect_control] using hfinal)]
    exact beginStop_at h hlisted
  · rw [if_neg (by simpa [canReconnect_control] using hretry)]
    have hclosing : At w₀ { w.control with connection := .closing }
        { w with connection := .closing } :=
      h.move (.connection .closing w.stopping w.everActive) rfl
    rw [wp_modify_bind, wp_bind, wp_when]
    refine ⟨fun hregistered => ?_, fun hunregistered => ?_⟩
    · rw [if_pos (show w.control.registered = true from hregistered)]
      refine wp_imp (sweep_at hclosing (hlisted.registered hregistered)) fun _ w₁ h₁ => ?_
      rw [wp_modify]
      exact h₁.move .unmap (congrArg (fun c : Control => { c with mapped := false }) h₁.control)
    · rw [if_neg (show ¬w.control.registered = true from hunregistered), wp_modify]
      exact hclosing.move .unmap rfl

/-! ## Callbacks of nghttp2 -/

theorem external_at (error : StreamError) : Keeps (At w₀ c) (external error) :=
  external_keeps (at_closed w₀ c) error

theorem At.header (h : At w₀ c w) (part : HeaderPart) :
    At w₀ c { w with stream := w.stream.withHeaders part } :=
  h.quiet (.header part) rfl

theorem readClientStreamData_at (outputLength : ℕ) (h : At w₀ c w) (howned : c.loopOwned)
    (hopened : c.closed = false) (hsubmitted : c.streamId.isSome) :
    wp (readClientStreamData outputLength) (fun _ => At w₀ c) never w := by
  unfold readClientStreamData modifyStream modifyLog
  refine wp_seq (lock_ends (at_closed w₀ c) w h) fun _ w₁ h₁ => ?_
  have howned₁ : w₁.stream.loopOwned := (congrArg Control.loopOwned h₁.control).trans howned
  have hopened₁ : w₁.stream.transportClosed = false :=
    (congrArg Control.closed h₁.control).trans hopened
  have hsubmitted₁ : w₁.stream.streamId.isSome :=
    (congrArg (fun c : Control => c.streamId.isSome) h₁.control).trans hsubmitted
  rw [wp_get_bind]
  dsimp only
  split
  · rename_i hempty
    rw [wp_ite, wp_modify, wp_modify]
    exact ⟨fun hsending => h₁.quiet (.deferred hopened₁ hsubmitted₁ hempty hsending) rfl,
      fun hended => h₁.quiet (.eof hopened₁ hempty (eq_false_of_ne_true hended)) rfl⟩
  · rename_i item rest hqueue
    rw [wp_modify_bind, wp_ite]
    refine ⟨fun hwhole => ?_, fun hpart => ?_⟩
    · rw [wp_modify_bind, wp_when]
      have hdone := h₁.quiet (.wholly item rest outputLength howned₁ hopened₁ hqueue hwhole) rfl
      refine ⟨fun _ => ?_, fun _ => hdone⟩
      exact Exits.bind .get (fun _ => invokeCallback_at _ rfl) _ hdone
    · rw [wp_modify]
      exact h₁.quiet (.partly item rest outputLength howned₁ hqueue hpart) rfl

theorem onBeginHeaders_at (kind : HeaderKind) : Ends (At w₀ c) (onBeginHeaders kind) :=
  .when fun _ => .modify fun w h => h.header
    { w.stream.headers with
      blockMetadata := []
      blockGrpcMessage := none
      blockGrpcStatus := none
      blockKind := kind
      sawResponseHeaders := w.stream.sawResponseHeaders || kind = .response }

/-- What a stream must be like for its outcome to be recorded. -/
structure Control.Forcible (c : Control) : Prop where
  live : c.terminal = false ∨ c.forced.isSome
  submitted : c.streamId.isSome
  opened : c.closed = false
  owned : c.loopOwned

theorem At.force (status : Status) (h : At w₀ c w) (hlive : c.terminal = false ∨ c.forced.isSome)
    (hsubmitted : c.streamId.isSome) (hcode : status.code ≠ .ok) :
    At w₀ (c.force status) { w with stream := w.stream.setForcedStreamStatus status } := by
  obtain rfl := h.control
  exact h.move (.force status hcode hlive hsubmitted) rfl

/-- A callback that fails the stream, if it does, records an outcome and submits a reset. -/
inductive Control.Settles (c : Control) : Control → Prop
  | same : c.Settles c
  | failed (status : Status) : c.Settles { c.force status with rst := true }

inductive Control.Breaks (c : Control) : Control → Prop
  | same : c.Breaks c
  | failed (status : Status) : c.Breaks (c.force status)
  | reset (status : Status) : c.Breaks { c.force status with rst := true }

def SettledAt (w₀ : World) (c : Control) (w : World) : Prop := ∃ c', c.Settles c' ∧ At w₀ c' w

def BrokenAt (w₀ : World) (c : Control) (w : World) : Prop := ∃ c', c.Breaks c' ∧ At w₀ c' w

theorem At.settled (h : At w₀ c w) : SettledAt w₀ c w := ⟨c, .same, h⟩

theorem At.broken (h : At w₀ c w) : BrokenAt w₀ c w := ⟨c, .same, h⟩

theorem failClientStreamOnLoop_at {failure : Status} (h : At w₀ c w) (hc : c.Forcible)
    (hcode : failure.code ≠ .ok) :
    wp (failClientStreamOnLoop failure) (fun _ => At w₀ { c.force failure with rst := true })
      (fun _ => At w₀ (c.force failure)) w := by
  have hforced := h.force failure hc.live hc.submitted hcode
  unfold failClientStreamOnLoop modifyStream
  rw [wp_modify_bind, wp_get_when]
  refine ⟨fun _ => ?_, fun hnot => ⟨hforced.moves, hforced.control.trans ?_, hforced.base⟩⟩
  · refine wp_seq (external_at _ _ hforced) fun _ w₁ h₁ => ?_
    rw [wp_modify]
    exact h₁.move .reset (congrArg (fun c : Control => { c with rst := true }) h₁.control)
  · have hopened : w.stream.transportClosed = false :=
      (congrArg Control.closed h.control).trans hc.opened
    have hrst : c.rst = true := by
      rw [← h.control]
      simpa [ClientStreamState.setForcedStreamStatus, hopened, World.control] using hnot
    show c.force failure = { c.force failure with rst := true }
    rw [← hrst]
    rfl

theorem Control.Forcible.force (hc : c.Forcible) (status : Status) : (c.force status).Forcible :=
  ⟨.inr rfl, hc.submitted, hc.opened, hc.owned⟩

theorem headersRejection_ne_ok (s : ClientStreamState) : (headersRejection s).code ≠ .ok := by
  unfold headersRejection
  split <;> nofun

theorem rejectClientStreamResponseHeaders_at (h : At w₀ c w) (hc : c.Forcible) :
    wp rejectClientStreamResponseHeaders (fun _ => SettledAt w₀ c) (fun _ => BrokenAt w₀ c) w := by
  unfold rejectClientStreamResponseHeaders modifyStream
  rw [wp_modify_bind, wp_bind]
  have hheaders := h.header
    { w.stream.headers with
      blockMetadata := []
      blockGrpcMessage := none
      blockGrpcStatus := none
      blockKind := .none }
  refine wp_ends (lock_ends (at_closed w₀ c) _ (hheaders.quiet .tooLarge rfl)) fun _ w₁ h₁ => ?_
  rw [wp_modify_bind]
  have hforced := h₁.force _ hc.live hc.submitted (headersRejection_ne_ok w₁.stream)
  exact wp_mono (failClientStreamOnLoop_at hforced (hc.force _) nofun)
    (fun _ w₂ h₂ => ⟨_, .failed _, h₂⟩) fun _ w₂ h₂ => ⟨_, .failed _, h₂⟩

theorem accountResponseHeader_at (nameLength valueLength : ℕ) (h : At w₀ c w) (hc : c.Forcible) :
    wp (accountResponseHeader nameLength valueLength)
      (fun store w' => SettledAt w₀ c w' ∧ (store → At w₀ c w')) (fun _ => BrokenAt w₀ c) w := by
  unfold accountResponseHeader modifyStream
  rw [wp_get_bind]
  dsimp only
  rw [wp_ite, wp_pure]
  refine ⟨fun _ => ⟨h.settled, nofun⟩, fun _ => ?_⟩
  split
  · exact wp_seq (rejectClientStreamResponseHeaders_at h hc) fun _ _ h' => ⟨h', nofun⟩
  · rename_i total _
    rw [wp_modify_bind, wp_pure]
    have hcharged := h.header { w.stream.headers with responseHeaderListSize := total }
    exact ⟨hcharged.settled, fun _ => hcharged⟩

theorem appendResponseMetadata_at (name value : Bytes) :
    Keeps (At w₀ c) (appendResponseMetadata name value) := by
  intro w h
  unfold appendResponseMetadata
  rw [wp_get_bind]
  dsimp only
  have hspends := Metadata.appendDecoded_spends name value ⟨w.env.faults, w.stream.blockMetadata⟩
  have henv : ∀ faults, (w.env.faults = [] → faults = []) →
      At w₀ c { w with env := { w.env with faults := faults } } := fun faults hfaults =>
    h.quiet (.app (.env _ hfaults)) rfl
  unfold wp at hspends
  split
  · rename_i metadata hrun
    rw [hrun] at hspends
    rw [wp_modify]
    exact (henv metadata.allocator hspends).header
      { w.stream.headers with blockMetadata := metadata.entries }
  · rename_i metadata hrun
    rw [hrun] at hspends
    rw [wp_modify_bind, wp_throw]
    exact henv metadata.allocator hspends
  · rename_i metadata _ hrun
    rw [hrun] at hspends
    rw [wp_modify]
    exact (henv metadata.allocator hspends).header
      { w.stream.headers with responseMetadataInvalid := true }

theorem processClientResponseMetadata_at (name value : Bytes) (h : At w₀ c w) (hc : c.Forcible) :
    wp (processClientResponseMetadata name value) (fun _ => SettledAt w₀ c) (fun _ => BrokenAt w₀ c)
      w := by
  have hinvalid := h.header { w.stream.headers with responseMetadataInvalid := true }
  unfold processClientResponseMetadata modifyStream
  rw [wp_get_bind]
  dsimp only
  rw [wp_ite]
  refine ⟨fun _ => ?_, fun _ => ?_⟩
  · split
    · exact rejectClientStreamResponseHeaders_at h hc
    · exact hinvalid.settled
    · rename_i total _
      rw [wp_modify_bind]
      have hcharged := h.header { w.stream.headers with retainedResponseMetadataSize := total }
      exact wp_mono (appendResponseMetadata_at name value _ hcharged) (fun _ _ h' => h'.settled)
        fun _ _ h' => h'.broken
  · rw [wp_when, wp_modify]
    exact ⟨fun _ => hinvalid.settled, fun _ => h.settled⟩

theorem storeResponseHeader_at (name value : Bytes) (h : At w₀ c w) (hc : c.Forcible) :
    wp (storeResponseHeader name value) (fun _ => SettledAt w₀ c) (fun _ => BrokenAt w₀ c) w := by
  unfold storeResponseHeader modifyStream
  simp only [wp_ite, wp_modify]
  refine ⟨fun _ => ?status, fun _ =>
    ⟨fun _ => ?contentType, fun _ => ⟨fun _ => ?grpcStatus, fun _ =>
    ⟨fun _ => ?grpcMessage, fun _ => ⟨fun _ => ?encoding, fun _ => ?metadata⟩⟩⟩⟩⟩
  case status =>
    exact (h.header { w.stream.headers with httpStatus := parseUnsigned maxU16 value }).settled
  case contentType =>
    exact (h.header { w.stream.headers with
      contentTypeGrpc := (ascii "application/grpc").isPrefixOf value }).settled
  case grpcStatus =>
    exact (h.header { w.stream.headers with
      blockGrpcStatus := some (parseGrpcStatus value) }).settled
  case grpcMessage =>
    rw [wp_bind]
    refine wp_mono (external_at _ w h) (fun _ w₁ h₁ => ?_) fun _ _ h' => h'.broken
    exact (h₁.header { w₁.stream.headers with blockGrpcMessage := some value }).settled
  case encoding =>
    split
    · exact (h.header { w.stream.headers with responseEncodingInvalid := true }).settled
    · rename_i compression _
      exact (h.quiet (.encoding compression) rfl).settled
  case metadata => exact processClientResponseMetadata_at name value h hc

theorem onHeader_at (name value : Bytes) (h : At w₀ c w) (hc : c.Forcible) :
    wp (onHeader name value) (fun _ => SettledAt w₀ c) (fun _ => BrokenAt w₀ c) w := by
  unfold onHeader
  refine wp_seq (accountResponseHeader_at _ _ h hc) fun store w₁ h₁ => ?_
  rw [wp_ite]
  exact ⟨fun hstore => storeResponseHeader_at name value (h₁.2 hstore) hc, fun _ => h₁.1⟩

theorem onInvalidHeader_at (nameLength valueLength : ℕ) (h : At w₀ c w) (hc : c.Forcible) :
    wp (onInvalidHeader nameLength valueLength) (fun _ => SettledAt w₀ c) (fun _ => BrokenAt w₀ c)
      w := by
  unfold onInvalidHeader
  exact wp_seq (accountResponseHeader_at _ _ h hc) fun _ _ h' => h'.1

theorem copyMetadata_at (initial : Bool) (entries : List Entry) :
    Keeps (At w₀ c) (copyMetadata initial entries) := by
  induction entries with
  | nil => exact .pure _
  | cons entry rest ih =>
    refine .bind (external_at _) fun _ => .bind (.modify fun w h => ?_) fun _ => ih
    exact h.header { w.stream.headers with initialMetadata := _, trailingMetadata := _ }

theorem finishClientHeaderBlock_at (endStream : Bool) :
    Keeps (At w₀ c) (finishClientHeaderBlock endStream) := by
  unfold finishClientHeaderBlock modifyStream
  refine .bind .get fun s => ?_
  refine .ite (fun _ => .bind (.modify fun w h => ?_) fun _ => .pure _) fun _ =>
    .bind (copyMetadata_at _ _) fun _ => .bind (.modify fun w h => ?_) fun _ =>
    .bind (.when fun _ => .bind (.modify fun w h => ?_) fun _ => ?_) fun _ => .pure _
  · exact h.header { w.stream.headers with blockKind := .none }
  · exact h.header
      { w.stream.headers with
        grpcStatus := w.stream.blockGrpcStatus.or w.stream.grpcStatus
        grpcMessage := w.stream.blockGrpcMessage.or w.stream.grpcMessage
        blockGrpcMessage := none
        blockKind := .none }
  · exact h.header { w.stream.headers with headersCalled := true }
  · exact .bind .get fun _ => .of_ends (invokeCallback_at _ rfl)

theorem onHeadersFrame_at (endStream : Bool) (h : At w₀ c w) (hc : c.Forcible) :
    wp (onHeadersFrame endStream) (fun _ => SettledAt w₀ c) (fun _ => BrokenAt w₀ c) w := by
  have hend : ∀ w', SettledAt w₀ c w' →
      wp (when endStream (modifyStream fun s => { s with remoteEndSeen := true }))
        (fun _ => SettledAt w₀ c) (fun _ => BrokenAt w₀ c) w' := by
    rintro w' ⟨c', hsettles, h'⟩
    unfold modifyStream
    rw [wp_when, wp_modify]
    exact ⟨fun _ => ⟨c', hsettles, h'.header { w'.stream.headers with remoteEndSeen := true }⟩,
      fun _ => ⟨c', hsettles, h'⟩⟩
  unfold onHeadersFrame
  rw [wp_bind]
  refine wp_mono (finishClientHeaderBlock_at endStream w h) (fun valid w₁ h₁ => ?_) fun _ _ h' =>
    h'.broken
  rw [wp_bind, wp_when]
  refine ⟨fun _ => ?_, fun _ => hend w₁ h₁.settled⟩
  exact wp_mono (failClientStreamOnLoop_at h₁ hc nofun) (fun _ w₂ h₂ => hend w₂ ⟨_, .failed _, h₂⟩)
    fun _ _ h' => ⟨_, .failed _, h'⟩

theorem AppMove.flow (hmove : AppMove w w') : w'.flow = w.flow := by
  cases hmove <;> rfl

theorem AppMove.cancelled (hmove : AppMove w w') (h : w.stream.cancelRequested) :
    w'.stream.cancelRequested := by
  cases hmove with
  | cancel => rfl
  | release => rfl
  | _ => exact h

theorem AppMoves.flow (h : AppMoves w w') : w'.flow = w.flow :=
  AppClosed.moves (I := fun w' => w'.flow = w.flow) (fun _ _ hmove hw => hmove.flow.trans hw) h rfl

theorem AppMoves.released (h : AppMoves w w') (hw : w.stream.appReleased) : w'.stream.appReleased :=
  AppClosed.moves (I := fun w' => w'.stream.appReleased) (fun _ _ hmove => hmove.released) h hw

theorem AppMoves.cancelled (h : AppMoves w w') (hw : w.stream.cancelRequested) :
    w'.stream.cancelRequested :=
  AppClosed.moves (I := fun w' => w'.stream.cancelRequested) (fun _ _ hmove => hmove.cancelled) h hw

theorem closeOutcome_records (errorCode now : ℕ)
    (hlive : s.terminal = false ∨ s.forcedStatus.isSome) :
    ∃ forced expired,
      closeOutcome s errorCode now =
        { s with forcedStatus := forced, deadlineExpired := expired } ∧
      s.Records forced ∧
      (forced = none → expired = s.deadlineExpired ∧ s.forcedStatus = none ∧
        ¬(s.cancelRequested ∧ ¬s.appReleased) ∧
        ¬(errorCode = cancelCode ∧ hasExpired s.deadline now)) := by
  have hrecords : ∀ status : Status, status.code ≠ .ok →
      s.Records (some (s.forcedStatus.getD status)) := by
    intro status hcode
    cases hforced : s.forcedStatus with
    | some => exact .inl hforced.symm
    | none => exact .inr ⟨hforced, hlive.resolve_right (by simp [hforced]), status, rfl, hcode⟩
  unfold closeOutcome
  split
  · exact ⟨_, s.deadlineExpired, rfl, hrecords _ nofun, nofun⟩
  · rename_i hcancel
    split
    · exact ⟨_, true, rfl, hrecords _ nofun, nofun⟩
    · rename_i hexpired
      exact ⟨s.forcedStatus, s.deadlineExpired, rfl, .inl rfl,
        fun hnone => ⟨rfl, hnone, hcancel, hexpired⟩⟩

/-- A stream that the close leaves alone: nothing has settled its outcome and there is something
to hand on. -/
structure World.Waiting (w : World) (errorCode now : ℕ) : Prop where
  live : w.stream.terminal = false
  unforced : w.stream.forcedStatus = none
  unreleased : w.stream.appReleased = false
  uncancelled : w.stream.cancelRequested = false
  unexpired : ¬(errorCode = cancelCode ∧ hasExpired w.stream.deadline now)
  undelivered : ¬(w.stream.receivePaused = false ∧ w.stream.inbound = [])

theorem settleClose_at {errorCode now : ℕ} {forced : Option Status} {expired : Bool}
    (heq : closeOutcome w.stream errorCode now =
      { w.stream with forcedStatus := forced, deadlineExpired := expired })
    (h : At w₀ c { w with stream :=
      { w.stream with forcedStatus := forced, deadlineExpired := expired } })
    (hclosed : c.closed) (howned : c.loopOwned) :
    wp (settleClose errorCode now)
      (fun _ w' => At w₀ c.gaveUp w' ∨ At w₀ c w' ∧ forced = none ∧ w.stream.terminal = false ∧
        w.stream.appReleased = false ∧
        ¬(w.stream.receivePaused = false ∧ w.stream.inbound = [])) never w := by
  unfold settleClose modifyStream
  rw [wp_modify_bind, wp_get_when]
  dsimp only
  rw [heq]
  refine ⟨fun hfinal => ?_, fun hwait => .inr ⟨h, ?_⟩⟩
  · refine wp_imp (finalizeRelease_at h hclosed howned ?_) fun _ w₂ h₂ => .inl h₂
    rcases hfinal with hended | hsettled | hreleased | hempty
    · exact .inr (.inr (.inl hended))
    · exact .inr (.inl hsettled)
    · exact .inr (.inr (.inr hreleased))
    · exact .inl ⟨by simpa using hempty.1, hempty.2⟩
  · simp only [not_or, Bool.not_eq_true, Option.isSome_eq_false_iff, Option.isNone_iff_eq_none]
      at hwait
    obtain ⟨hended, hsettled, hreleased, hempty⟩ := hwait
    exact ⟨hsettled, hended, hreleased, by simpa using hempty⟩

theorem onStreamClose_at (errorCode now : ℕ) (h : At w₀ c w) (hmapped : c.mapped)
    (howned : c.loopOwned) (hlive : c.terminal = false ∨ c.forced.isSome)
    (hsubmitted : c.streamId.isSome) :
    wp (onStreamClose errorCode now)
      (fun _ w' => (∃ forced expired, At w₀ { c.gaveUp with
          mapped := false, closed := true, forced := forced, expired := expired } w') ∨
        At w₀ { c with mapped := false, closed := true, entry := none } w' ∧
          w.Waiting errorCode now) never w := by
  obtain rfl := h.control
  let removed : World := { w with stream := { w.stream with deadlineEntry := none } }
  let closed : World := { removed with
    mapped := false
    stream := { removed.stream with transportClosed := true, streamError := errorCode } }
  have hremoved : At w₀ { w.control with entry := none } removed := h.move (.deadline none) rfl
  unfold onStreamClose modifyStream
  rw [wp_modify_bind]
  refine wp_seq (lock_ends (appMoves_closed closed) closed .refl) fun _ w₁ happ => ?_
  have hcontrol := happ.control
  have hlive' : w₁.stream.terminal = false ∨ w₁.stream.forcedStatus.isSome := by
    show w₁.control.terminal = false ∨ w₁.control.forced.isSome
    rw [hcontrol]
    exact hlive
  obtain ⟨forced, expired, heq, hrecords, hnone⟩ :=
    closeOutcome_records (s := { w₁.stream with sendOpen := false }) errorCode now hlive'
  have hmove := Move.close (w := removed) errorCode hmapped happ forced expired
    (by
      show removed.stream.Records forced
      unfold ClientStreamState.Records at hrecords ⊢
      rwa [show w.stream.forcedStatus = w₁.stream.forcedStatus from
          (congrArg Control.forced hcontrol).symm,
        show w.stream.terminal = w₁.stream.terminal from (congrArg Control.terminal hcontrol).symm])
    (fun hforced => by
      have hcancel := (hnone hforced).2.2.1
      cases hreleased : w₁.stream.appReleased with
      | true => exact .inr rfl
      | false => exact .inl (by simpa [hreleased] using hcancel))
  have hat : At w₀ { w.control with
      mapped := false, closed := true, entry := none, forced := forced, expired := expired }
      { w₁ with stream := { w₁.stream with
        sendOpen := false, forcedStatus := forced, deadlineExpired := expired } } :=
    hremoved.move hmove
      (congrArg (fun c : Control => { c with forced := forced, expired := expired }) hcontrol)
  rw [wp_modify_bind]
  refine wp_imp (settleClose_at heq hat rfl howned) fun _ w₂ h₂ => ?_
  rcases h₂ with h₂ | ⟨h₂, rfl, hended, hreleased, hundelivered⟩
  · exact .inl ⟨forced, expired, h₂⟩
  obtain ⟨rfl, hunforced, hcancel, hexpired⟩ := hnone rfl
  have hunforced : w.control.forced = none :=
    (congrArg Control.forced hcontrol).symm.trans hunforced
  have hkept : w₁.stream.deadlineExpired = w.stream.deadlineExpired :=
    congrArg Control.expired hcontrol
  refine .inr ⟨⟨h₂.moves, h₂.control.trans ?_, h₂.base⟩, ?_⟩
  · show { w.control with
      mapped := false, closed := true, entry := none, forced := none
      expired := w₁.stream.deadlineExpired } = _
    rw [hkept, ← hunforced]
    rfl
  -- what the application did meanwhile cannot have undone anything
  have hflow := happ.flow
  have hpaused : w₁.stream.receivePaused = w.stream.receivePaused :=
    congrArg FlowPart.receivePaused hflow
  have hinbound : w₁.stream.inbound = w.stream.inbound := congrArg FlowPart.inbound hflow
  have hdeadline : w₁.stream.deadline = w.stream.deadline := congrArg Control.deadline hcontrol
  exact
    { live := (congrArg Control.terminal hcontrol).symm.trans hended
      unforced := hunforced
      unreleased := eq_false_of_ne_true fun hset =>
        Bool.noConfusion (hreleased.symm.trans (happ.released hset))
      uncancelled := eq_false_of_ne_true fun hset => hcancel
        ⟨happ.cancelled hset, fun hreleased' => Bool.noConfusion (hreleased.symm.trans hreleased')⟩
      unexpired := hdeadline ▸ hexpired
      undelivered := hpaused ▸ hinbound ▸ hundelivered }

/-! ## Deadlines, GOAWAY and the first wake -/

/-- The control that `expireDeadlines` leaves: the entry is still there, it was out of date, the
stream has ended, or a reset is on its way. -/
inductive Control.Expires (c : Control) (now : ℕ) : Control → Prop
  | pending (h : ∀ expiry, c.entry = some expiry → now < expiry) : c.Expires now c
  | stale (expiry : ℕ) (hentry : c.entry = some expiry)
      (hstale : ¬(c.deadline = some expiry ∧ c.expired = false ∧ c.terminal = false ∧
        c.loopOwned)) :
      c.Expires now { c with entry := none }
  | gaveUp (hunmapped : c.streamId = none ∨ c.closed) :
      c.Expires now { c.gaveUp with expired := true }
  | reset (hmapped : c.mapped) :
      c.Expires now { c.force (.init .deadlineExceeded "deadline exceeded") with
        entry := none, expired := true, rst := true }

theorem expireDeadlines_at (now : ℕ) (h : At w₀ c w)
    (hunforced : c.streamId = none ∨ c.closed → c.loopOwned → c.forced = none)
    (hmapped : c.loopOwned → c.streamId.isSome → c.mapped ∨ c.closed) :
    wp (expireDeadlines now) (fun _ w' => ∃ c', c.Expires now c' ∧ At w₀ c' w')
      (fun _ w' => ∃ forced, c.mapped ∧
        At w₀ { c with entry := none, expired := true, forced := forced } w')
      w := by
  obtain rfl := h.control
  unfold expireDeadlines modifyStream
  rw [wp_get_bind]
  split
  · rename_i hentry
    refine ⟨_, .pending fun expiry hsome => ?_, h⟩
    cases hentry.symm.trans hsome
  rename_i expiry hentry
  rw [wp_when]
  refine ⟨fun hdue => ?_, fun hlater => ⟨_, .pending fun other hsome => ?_, h⟩⟩
  swap
  · have : expiry = other := Option.some.inj (hentry.symm.trans hsome)
    omega
  have hremoved : At w₀ { w.control with entry := none }
      { w with stream := { w.stream with deadlineEntry := none } } := h.move (.deadline none) rfl
  unfold removeStreamDeadline modifyStream
  rw [wp_modify_bind, wp_get_when]
  refine ⟨fun hlive => ?_, fun hstale => ⟨_, .stale expiry hentry ?_, hremoved⟩⟩
  swap
  · simpa [World.control] using hstale
  have howned : w.control.loopOwned := hlive.2.2.2
  have hexpired : At w₀ { w.control with entry := none, expired := true }
      { w with stream := { w.stream with deadlineEntry := none, deadlineExpired := true } } :=
    hremoved.move .expired rfl
  rw [wp_modify_bind, wp_ite]
  refine ⟨fun hgone => ?_, fun hup => ?_⟩
  · exact wp_ends (giveUp_unforced hexpired howned nofun (hunforced hgone howned))
      fun _ w₁ h₁ => ⟨_, .gaveUp hgone, h₁⟩
  rw [not_or] at hup
  have hsubmitted : w.control.streamId.isSome := Option.isSome_iff_ne_none.mpr hup.1
  have hmap : w.control.mapped := (hmapped howned hsubmitted).resolve_right hup.2
  have hforced := hexpired.force (.init .deadlineExceeded "deadline exceeded")
    (.inl (eq_false_of_ne_true hlive.2.2.1)) hsubmitted nofun
  rw [wp_get_when]
  refine ⟨fun _ => ?_, fun hnot => absurd hmap hnot⟩
  rw [wp_modify_bind, wp_when]
  refine ⟨fun _ => ?_, fun hreset =>
    ⟨_, .reset hmap, ⟨hforced.moves, hforced.control.trans ?_, hforced.base⟩⟩⟩
  · rw [wp_bind]
    refine wp_mono (external_at _ _ hforced) (fun _ w₁ h₁ => ?_) fun _ _ h' => ⟨_, hmap, h'⟩
    rw [wp_modify]
    exact ⟨_, .reset hmap,
      h₁.move .reset (congrArg (fun c : Control => { c with rst := true }) h₁.control)⟩
  · have hrst : w.control.rst = true := not_not.mp hreset
    rw [← hrst]
    rfl

/-- The control after a GOAWAY: streams that it rejects end, and are reset if they were
submitted. -/
inductive Control.GoesAway (lastStreamId : ℕ) (c : Control) : Control → Prop
  | same (hsubmitted : c.registered → c.streamId.isSome)
      (hkept : ¬(c.mapped ∧ goAwayRejectsStream c.streamId lastStreamId)) :
      c.GoesAway lastStreamId c
  | reset (hmapped : c.mapped) (hrejected : goAwayRejectsStream c.streamId lastStreamId) :
      c.GoesAway lastStreamId
        { c.force goAwayStatus with terminal := true, entry := none, rst := true }
  | gaveUp (hunsubmitted : c.streamId = none) : c.GoesAway lastStreamId c.gaveUp

theorem terminalizeActiveForGoAway_at (lastStreamId : ℕ) (h : At w₀ c w)
    (howned : c.mapped → c.loopOwned) (hforcible : c.mapped → c.Forcible) :
    wp (terminalizeActiveForGoAway lastStreamId)
      (fun _ w' => ¬(c.mapped ∧ goAwayRejectsStream c.streamId lastStreamId) ∧ At w₀ c w' ∨
        (c.mapped ∧ goAwayRejectsStream c.streamId lastStreamId) ∧
          At w₀ { c.force goAwayStatus with terminal := true, entry := none, rst := true } w')
      (fun _ w' => c.mapped ∧
        At w₀ { c.force goAwayStatus with terminal := true, entry := none } w') w := by
  obtain rfl := h.control
  unfold terminalizeActiveForGoAway modifyStream
  rw [wp_get_when]
  refine ⟨fun hrejected => ?_, fun hkept => .inl ⟨hkept, h⟩⟩
  have hmapped : w.control.mapped := hrejected.1
  have hc := hforcible hmapped
  have hforced := h.force goAwayStatus hc.live hc.submitted (by decide)
  have hterminated : (w.control.force goAwayStatus).terminated =
      { w.control.force goAwayStatus with terminal := true, entry := none } := by
    simp [Control.terminated, Control.force, howned hmapped]
  rw [wp_modify_bind]
  refine wp_ends_seq (terminalizeStream_at hforced ?_) fun _ w₁ h₁ => ?_
  · refine
      { agrees := fun _ => .inl fun forced hrecorded => ?_, ok := fun hok => ?_
        drained := Bool.noConfusion }
    · exact Option.some.inj hrecorded
    · exact absurd hok (hforced.base.failure _ rfl)
  · rw [hterminated] at h₁
    rw [wp_get_when]
    refine ⟨fun _ => ?_, fun hreset => .inr ⟨hrejected, h₁.moves, h₁.control.trans ?_, h₁.base⟩⟩
    · rw [wp_bind]
      refine wp_mono (external_at _ _ h₁) (fun _ w₂ h₂ => ?_) fun _ _ h' => ⟨hmapped, h'⟩
      rw [wp_modify]
      exact .inr ⟨hrejected,
        h₂.move .reset (congrArg (fun c : Control => { c with rst := true }) h₂.control)⟩
    · have hrst : w.control.rst = true :=
        (congrArg Control.rst h₁.control).symm.trans (not_not.mp hreset)
      rw [← hrst]
      rfl

theorem terminalizePendingForGoAway_at (h : At w₀ c w) (howned : c.registered → c.loopOwned)
    (hunforced : c.streamId = none → c.forced = none) :
    wp terminalizePendingForGoAway (fun _ w' =>
      (c.registered → c.streamId.isSome) ∧ At w₀ c w' ∨ c.streamId = none ∧ At w₀ c.gaveUp w')
      never w := by
  obtain rfl := h.control
  unfold terminalizePendingForGoAway
  rw [wp_get_when]
  refine ⟨fun hpending => ?_, fun hnot => .inl ⟨fun hregistered => ?_, h⟩⟩
  · exact wp_imp (giveUp_unforced h (howned hpending.1) nofun (hunforced hpending.2))
      fun _ w₁ h₁ => .inr ⟨hpending.2, h₁⟩
  · exact Option.isSome_iff_ne_none.mpr fun hnone => hnot ⟨hregistered, hnone⟩

theorem terminalizeStreamsForGoAway_at (lastStreamId : ℕ) (h : At w₀ c w) (hlisted : c.Listed)
    (hforcible : c.mapped → c.Forcible) (hunforced : c.streamId = none → c.forced = none) :
    wp (terminalizeStreamsForGoAway lastStreamId)
      (fun _ w' => ∃ c', c.GoesAway lastStreamId c' ∧ At w₀ c' w')
      (fun _ w' => c.mapped ∧
        At w₀ { c.force goAwayStatus with terminal := true, entry := none } w') w := by
  unfold terminalizeStreamsForGoAway
  refine wp_seq (terminalizeActiveForGoAway_at lastStreamId h
    (fun hmapped => hlisted.registered (hlisted.mapped hmapped)) hforcible) fun _ w₁ h₁ => ?_
  rcases h₁ with ⟨hkept, h₁⟩ | ⟨⟨hmapped, hrejected⟩, h₁⟩
  · refine wp_ends (terminalizePendingForGoAway_at h₁ hlisted.registered hunforced)
      fun _ w₂ h₂ => ?_
    rcases h₂ with ⟨hsubmitted, h₂⟩ | ⟨hnone, h₂⟩
    · exact ⟨c, .same hsubmitted hkept, h₂⟩
    · exact ⟨_, .gaveUp hnone, h₂⟩
  · have hsubmitted := (hforcible hmapped).submitted
    refine wp_ends (terminalizePendingForGoAway_at h₁ hlisted.registered fun hnone => ?_)
      fun _ w₂ h₂ => ?_
    · exact absurd hnone (Option.isSome_iff_ne_none.mp hsubmitted)
    · rcases h₂ with ⟨_, h₂⟩ | ⟨hnone, _⟩
      · exact ⟨_, .reset hmapped hrejected, h₂⟩
      · exact absurd hnone (Option.isSome_iff_ne_none.mp hsubmitted)

/-! ## The first wake -/

theorem insertDeadline_at (h : At w₀ c w) :
    wp insertDeadline (fun _ => At w₀ { c with entry := c.deadline.or c.entry }) (fun _ => At w₀ c)
      w := by
  obtain rfl := h.control
  unfold insertDeadline
  rw [wp_get_bind]
  split
  · rename_i hnone
    refine ⟨h.moves, ?_, h.base⟩
    show w.control = { w.control with entry := w.stream.deadline.or w.stream.deadlineEntry }
    rw [hnone]
    rfl
  · rename_i deadline hsome
    unfold deadlineHeapInsertOrUpdate modifyStream
    rw [wp_get_bind]
    refine wp_seq ((Exits.when fun _ => external_at _) w h) fun _ w₁ h₁ => ?_
    rw [wp_modify]
    refine h₁.move (.deadline (some deadline)) ?_
    show { w₁.control with entry := some deadline } =
      { w.control with entry := w.stream.deadline.or w.stream.deadlineEntry }
    rw [hsome, h₁.control]
    rfl

theorem submitClientStream_at (id : ℕ) (h : At w₀ c w) (hnew : c.streamId = none) :
    wp (submitClientStream id) (fun _ => At w₀ { c with streamId := some id, mapped := true })
      (fun _ => At w₀ c) w := by
  unfold submitClientStream
  refine wp_seq (external_at _ w h) fun _ w₁ h₁ => ?_
  refine wp_seq (external_at _ w₁ h₁) fun _ w₂ h₂ => ?_
  rw [wp_modify]
  exact h₂.move (.submit id ((congrArg Control.streamId h₂.control).trans hnew))
    (congrArg (fun c : Control => { c with streamId := some id, mapped := true }) h₂.control)

/-- The result of a first wake: the stream is submitted on an active connection, or it ends. -/
def Started (w₀ : World) (c : Control) (id : ℕ) (submitted : Bool) (w : World) : Prop :=
  submitted = true ∧ c.connection = .active ∧ At w₀ { c with
      entry := c.deadline.or c.entry, streamId := some id, mapped := true } w ∨
    submitted = false ∧ ∃ expired, At w₀ { c.gaveUp with expired := expired } w

theorem startStream_at (now id : ℕ) (h : At w₀ c w) (howned : c.loopOwned)
    (hnew : c.streamId = none) (hunforced : c.forced = none) :
    wp (startStream now id) (Started w₀ c id) never w := by
  have hgive : ∀ {entry expired w₁ code} {reason : String} {E : StreamError → World → Prop},
      code ≠ .ok → At w₀ { c with entry := entry, expired := expired } w₁ →
      wp (do giveUp code reason; pure false) (Started w₀ c id) E w₁ := by
    intro entry expired w₁ code reason E hcode h₁
    exact wp_ends_seq (giveUp_unforced h₁ howned hcode hunforced)
      fun _ w₂ h₂ => .inr ⟨rfl, expired, h₂⟩
  unfold startStream modifyStream
  rw [wp_tryCatch, wp_bind]
  refine wp_mono (insertDeadline_at h) (fun _ w₁ h₁ => ?_) fun _ w₁ h₁ => hgive nofun h₁
  refine wp_ends_seq (lock_ends (at_closed _ _) w₁ h₁) fun _ w₂ h₂ => ?_
  rw [wp_get_bind, wp_ite]
  refine ⟨fun _ => hgive nofun h₂, fun _ => ?_⟩
  rw [wp_ite]
  refine ⟨fun _ => ?_, fun _ => ?_⟩
  · have hexpired : At w₀ { c with entry := c.deadline.or c.entry, expired := true }
        { w₂ with stream := { w₂.stream with deadlineExpired := true } } :=
      h₂.move .expired (congrArg (fun c : Control => { c with expired := true }) h₂.control)
    rw [wp_modify_bind]
    exact hgive nofun hexpired
  rw [wp_ite]
  refine ⟨fun _ => hgive nofun h₂, fun hactive => ?_⟩
  rw [wp_bind]
  refine wp_mono (submitClientStream_at id h₂ hnew) (fun _ w₃ h₃ => .inl ⟨rfl, ?_, h₃⟩)
    fun _ w₃ h₃ => hgive nofun h₃
  exact (congrArg Control.connection h₂.control).symm.trans (not_not.mp hactive)

end GrpcLite.Client
