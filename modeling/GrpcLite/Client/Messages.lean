import GrpcLite.Client.Lifecycle
import GrpcLite.Client.Receiving

/-!
# The messages of a client stream

Over whole runs, whatever the chunking of the received bytes and however the application pauses,
resumes and cancels: which messages it is given, and what they say about the status it is given.
-/

namespace GrpcLite.Client

open Prog

variable {w w' : World} {gapless : Prop} {c : Control}

theorem World.Draining.inOrder (h : w.Draining gapless c)
    (hempty : w.stream.cancelRequested = false → w.stream.receivePaused = false →
      w.stream.inbound = []) : w.InOrder gapless := by
  have hordered : w.stream.cancelRequested = false → w.log.delivered <+: w.log.decoded :=
    fun huncancelled => ⟨w.queued, h.complete huncancelled⟩
  refine { h with
    ordered := hordered
    direct := fun _ huncancelled hunpaused => ⟨hempty huncancelled hunpaused, ?_⟩
    told := fun _ outcome trailing hmem hset =>
      by cases (h.untold outcome trailing hmem).symm.trans hset
    done := fun hclosed _ _ _ _ hnone => h.done hclosed hnone }
  have hcomplete := h.complete huncancelled
  rw [World.queued, hempty huncancelled hunpaused, List.map_nil, List.append_nil] at hcomplete
  exact hcomplete

theorem World.Draining.whole (h : w.Draining gapless c) : w.Whole :=
  ⟨fun _ _ => h.starved, fun _ _ => h.complete⟩

theorem decodeAvailableMessages_starved (h : w.stream.decoder.Starved) :
    wp decodeAvailableMessages (fun _ => AppMoves w) (fun _ => AppMoves w) w := by
  unfold decodeAvailableMessages decodeLoop nextMessage
  rw [wp_get_bind, wp_bind, wp_bind]
  refine drawFault_wp fun oom faults hfaults => ?_
  have hmoves : AppMoves w { w with env := { w.env with faults := faults } } :=
    .single (.env _ fun hnone => (hfaults hnone).2)
  rw [wp_get_bind]
  have hanswers := w.stream.decoder.nextMessage_answers w.gzip oom
  cases hnext : w.stream.decoder.nextMessage w.gzip oom with
  | mk =>
    rw [hnext] at hanswers
    cases hanswers with
    | starved => exact hmoves
    | failed => exact hmoves
    | message frame message hframe hlength htaken hwhole => exact absurd h hwhole

theorem AppMoves.draining (hmoves : AppMoves w w') (h : w.Draining gapless c) :
    w'.Draining gapless c :=
  AppClosed.moves (fun _ _ hmove h => World.Draining.app h hmove) hmoves h

def World.Intact (gapless : Prop) (w : World) : Prop := w.InOrder gapless ∧ w.Whole

theorem Moves.intact (h : Moves w w') (hw : w.Intact gapless) : w'.Intact gapless :=
  ⟨h.inOrder hw.1, h.whole hw.2⟩

theorem AppMove.intact (hmove : AppMove w w') (h : w.Intact gapless) : w'.Intact gapless :=
  ⟨h.1.app hmove, h.2.app hmove⟩

theorem deliverInboundMessages_intact (h : w.Receiving gapless c) (hw : w.Intact gapless)
    (howned : c.loopOwned) (hlive : c.terminal = false) (hunforced : c.forced = none)
    (huncancelled : w.stream.cancelRequested = false) :
    wp deliverInboundMessages (fun _ => World.Intact gapless)
      (fun _ => World.Intact gapless) w := by
  have hlive' : w.stream.terminal = false := (congrArg Control.terminal h.control).trans hlive
  have hunforced' : w.stream.forcedStatus = none :=
    (congrArg Control.forced h.control).trans hunforced
  have hstart : World.Draining gapless c
      { w with stream := { w.stream with receivePaused := false } } :=
    { h with
      base := { h.base with }
      starved := hw.2.starved hlive' hunforced'
      complete := hw.2.complete hlive' hunforced'
      done := fun _ hempty _ _ => by
        have hcomplete := hw.2.complete hlive' hunforced' huncancelled
        rw [World.queued, show w.stream.inbound = [] from hempty, List.map_nil,
          List.append_nil] at hcomplete
        exact hcomplete }
  unfold deliverInboundMessages modifyStream
  rw [wp_modify_bind, wp_get_bind]
  refine wp_ends_seq (deliverQueued_draining hlive hstart (Nat.le_refl _)) fun _ w₁ h₁ => ?_
  obtain ⟨hdraining, hempty⟩ := h₁
  have hsettled : ∀ {w₂}, AppMoves w₁ w₂ → w₂.Draining gapless c ∧ w₂.Intact gapless := by
    intro w₂ hmoves
    have hdraining₂ := hmoves.draining hdraining
    refine ⟨hdraining₂, hdraining₂.inOrder fun huncancelled hunpaused => ?_, hdraining₂.whole⟩
    have hflow := hmoves.flow
    refine (congrArg FlowPart.inbound hflow).trans (hempty ?_ ?_)
    · exact eq_false_of_ne_true fun hset =>
        Bool.noConfusion (huncancelled.symm.trans (hmoves.cancelled hset))
    · exact (congrArg FlowPart.receivePaused hflow).symm.trans hunpaused
  have hdecoded : wp (when (¬w₁.stream.receivePaused = true) decodeAvailableMessages)
      (fun _ => AppMoves w₁) (fun _ => AppMoves w₁) w₁ := by
    rw [wp_when]
    exact ⟨fun _ => decodeAvailableMessages_starved hdraining.starved, fun _ => .refl⟩
  rw [wp_get_bind, wp_bind]
  refine wp_mono hdecoded (fun _ w₂ hmoves => ?_) fun _ w₂ hmoves => (hsettled hmoves).2
  obtain ⟨hdraining₂, hintact⟩ := hsettled hmoves
  rw [wp_get_when]
  refine ⟨fun hlast => ?_, fun _ => hintact⟩
  have hclosed : c.closed := hdraining₂.control ▸ hlast.1
  exact wp_ends (finalizeRelease_at hdraining₂.start hclosed howned
    (.inl ⟨by simpa using hlast.2.1, hlast.2.2⟩)) fun _ w₃ h₃ => h₃.moves.intact hintact

theorem World.Framed.inOrder (h : w.Framed gapless) (hopened : w.stream.transportClosed = false) :
    w.InOrder gapless :=
  { h with done := fun hclosed => by cases hopened.symm.trans hclosed }

theorem World.Framed.forced (h : w.Framed gapless) (status : Status) :
    World.Intact gapless { w with stream := w.stream.setForcedStreamStatus status } :=
  ⟨{ h with done := fun _ _ _ hnone => nomatch hnone },
    ⟨fun _ hnone => (nomatch hnone), fun _ hnone => (nomatch hnone)⟩⟩

theorem failClientStreamOnLoop_intact (failure : Status) (h : w.Framed gapless) :
    wp (failClientStreamOnLoop failure) (fun _ => World.Intact gapless)
      (fun _ => World.Intact gapless) w := by
  unfold failClientStreamOnLoop modifyStream
  rw [wp_modify_bind, wp_get_bind]
  refine Exits.when (fun _ => .bind (external_keeps (fun _ _ hmove h => hmove.intact h) _) fun _ =>
    .modify fun w h => ?_) _ (h.forced failure)
  exact ⟨Move.reset.inOrder h.1, Move.reset.whole h.2⟩

theorem creditConnection_keeps {I : World → Prop} (hI : AppClosed I) (length : ℕ)
    (hcredit : ∀ w, I w → I { w with log := { w.log with
      connectionCredit := w.log.connectionCredit + length } }) :
    Keeps I (creditConnection length) :=
  .bind (external_keeps hI _) fun _ => .modify hcredit

theorem creditConnection_intact (length : ℕ) :
    Keeps (World.Intact gapless) (creditConnection length) :=
  creditConnection_keeps (fun _ _ hmove h => hmove.intact h) length
    fun _ h => ⟨{ h.1 with }, { h.2 with }⟩

theorem creditStream_intact (length : ℕ) : Keeps (World.Intact gapless) (creditStream length) := by
  unfold creditStream modifyStream modifyLog
  refine .bind .get fun s => .ite (fun _ => ?_) fun _ =>
    .bind (external_keeps (fun _ _ hmove h => hmove.intact h) _) fun _ =>
    .modify fun _ h => ⟨{ h.1 with }, { h.2 with }⟩
  split
  · exact .throw fun _ => id
  · exact .modify fun _ h => ⟨{ h.1 with }, { h.2 with }⟩

theorem returnDeferredCredit_intact : Keeps (World.Intact gapless) returnDeferredCredit := by
  unfold returnDeferredCredit
  refine .bind .get fun s => .when fun _ =>
    .bind (external_keeps (fun _ _ hmove h => hmove.intact h) _) fun _ =>
    .modify fun _ h => ⟨{ h.1 with }, { h.2 with }⟩

theorem onDataFed_intact (length : ℕ) (h : w.Receiving gapless c) (hw : w.Handed w.log.decoded)
    (hopened : c.closed = false) :
    wp (onDataFed length) (fun _ => World.Intact gapless) (fun _ => World.InOrder gapless) w := by
  have hfed : Keeps (fun w' => w'.Receiving gapless c ∧ w'.Handed w'.log.decoded)
      (creditConnection length) := by
    refine creditConnection_keeps (fun w₁ w₂ hmove h => ⟨h.1.app hmove, ?_⟩) length
      fun w h => ⟨{ h.1 with base := { h.1.base with } }, { h.2 with }⟩
    rw [show w₂.log.decoded = w₁.log.decoded from congrArg FlowPart.decoded hmove.flow]
    exact h.2.app hmove
  have hopen : ∀ {w' : World}, w'.Receiving gapless c → w'.stream.transportClosed = false :=
    fun h' =>
    (congrArg Control.closed h'.control).trans hopened
  unfold onDataFed
  rw [wp_bind]
  refine wp_mono (hfed w ⟨h, hw⟩) (fun _ w₁ h₁ => ?_) fun _ w₁ h₁ => ?_
  · rw [wp_bind, wp_tryCatch, wp_bind]
    unfold decodeAvailableMessages
    rw [wp_get_bind]
    refine wp_mono (decodeLoop_receiving h₁.1 h₁.2 (Nat.lt_succ_self _)) (fun _ w₂ h₂ => ?_)
      fun err w₂ h₂ => ?_
    · rw [wp_pure]
      obtain ⟨hreceiving, hhanded, hstarved⟩ := h₂
      have hframed := hreceiving.framed hhanded (List.prefix_refl _) fun _ => rfl
      exact wp_mono (creditStream_intact length w₂ ⟨hframed.inOrder (hopen hreceiving),
        ⟨fun _ _ => hstarved, hhanded.complete⟩⟩) (fun _ _ h' => h') fun _ _ h' => h'.1
    · rw [wp_pure]
      exact wp_mono (failClientStreamOnLoop_intact _ h₂.2) (fun _ _ h' => h') fun _ _ h' => h'.1
  · exact (h₁.1.framed h₁.2 (List.prefix_refl _) fun _ => rfl).inOrder (hopen h₁.1)

theorem World.Parsed.unfed (h : w.Parsed gapless) (data : Bytes) (refused : Bool)
    {decoder : Frame.Decoder} (hoffset : decoder.offset ≤ decoder.buffer.length)
    (hmax : decoder.maxMessageSize = w.stream.decoder.maxMessageSize)
    (hsame : decoder.available = w.stream.decoder.available)
    (hlost : refused ∨ w.stream.responseHeadersTooLarge) :
    World.Parsed gapless { w with
      stream := { w.stream with decoder := decoder }
      log := { w.log with received := w.log.received ++ data, refused := refused } } := by
  refine { h with offset := hoffset, limit := hmax.trans h.limit, parsed := fun hgapless => ?_ }
  obtain ⟨frames, unfed, hframes, hreceived, _⟩ := h.parsed hgapless
  refine ⟨frames, unfed ++ data, ?_, ?_, fun hkept hsmall => absurd hlost ?_⟩
  · exact hmax.symm ▸ hframes
  · rw [hsame, ← List.append_assoc, ← hreceived]
  · simp [show refused = false from hkept, show w.stream.responseHeadersTooLarge =
      false from hsmall]

theorem World.Parsed.fed (h : w.Parsed gapless) (data : Bytes) {decoder : Frame.Decoder}
    (hoffset : decoder.offset ≤ decoder.buffer.length)
    (hmax : decoder.maxMessageSize = w.stream.decoder.maxMessageSize)
    (hmore : decoder.available = w.stream.decoder.available ++ data)
    (hsmall : w.stream.responseHeadersTooLarge = false) (hkept : gapless → w.log.refused = false) :
    World.Parsed gapless { w with
      stream := { w.stream with decoder := decoder }
      log := { w.log with received := w.log.received ++ data } } := by
  refine { h with offset := hoffset, limit := hmax.trans h.limit, parsed := fun hgapless => ?_ }
  obtain ⟨frames, unfed, hframes, hreceived, hunfed⟩ := h.parsed hgapless
  obtain rfl := hunfed (hkept hgapless) hsmall
  refine ⟨frames, [], hmax.symm ▸ hframes, ?_, fun _ _ => rfl⟩
  rw [hreceived, hmore]
  simp only [List.append_nil, List.append_assoc]

theorem onDataChunk_intact (data : Bytes) (h : w.Receiving gapless c) (hw : w.Intact gapless)
    (hopened : c.closed = false) (hkept : gapless → w.log.refused = false) :
    wp (onDataChunk data) (fun _ => World.Intact gapless) (fun _ => World.InOrder gapless) w := by
  obtain ⟨hordered, hwhole⟩ := hw
  unfold onDataChunk modifyLog modifyStream
  rw [wp_modify_bind, wp_get_bind, wp_ite]
  refine ⟨fun hlarge => ?_, fun hsmall => ?_⟩
  · have hunfed := h.toParsed.unfed data w.log.refused h.offset rfl rfl (.inr hlarge)
    exact wp_mono (creditConnection_intact _ _ ⟨{ hordered with parsed := hunfed.parsed },
      { hwhole with }⟩) (fun _ _ h' => h') fun _ _ h' => h'.1
  rw [wp_bind]
  refine drawFault_wp fun oom faults hfaults => ?_
  have hsmall : w.stream.responseHeadersTooLarge = false := eq_false_of_ne_true hsmall
  split
  · rename_i decoder hfeed
    obtain ⟨hoffset, hmax, hcase⟩ := Frame.Decoder.feedBounded_spec _ _ _ _ h.offset hfeed
    obtain ⟨_, _, hsame⟩ : ∃ err', _ ∧ decoder.available = w.stream.decoder.available :=
      hcase.resolve_right fun hok => nomatch hok.1
    rw [wp_modify_bind, wp_bind]
    have hunfed := h.toParsed.unfed data true hoffset hmax hsame (.inl rfl)
    have hframed : World.Framed gapless { w with
        stream := { w.stream with decoder := decoder }
        env := { w.env with faults := faults }
        log := { w.log with received := w.log.received ++ data, refused := true } } :=
      { hordered with offset := hoffset, limit := hunfed.limit, parsed := hunfed.parsed }
    refine wp_mono (failClientStreamOnLoop_intact _ hframed) (fun _ w₁ h₁ => ?_) fun _ _ h' => h'.1
    exact wp_mono (creditConnection_intact _ w₁ h₁) (fun _ _ h' => h') fun _ _ h' => h'.1
  · rename_i decoder hfeed
    obtain ⟨hoffset, hmax, hcase⟩ := Frame.Decoder.feedBounded_spec _ _ _ _ h.offset hfeed
    have hmore : decoder.available = w.stream.decoder.available ++ data := by
      rcases hcase with ⟨_, hnot, _⟩ | ⟨_, hmore⟩
      · cases hnot
      · exact hmore
    rw [wp_modify_bind]
    have hfed := h.toParsed.fed data hoffset hmax hmore hsmall hkept
    exact onDataFed_intact data.length (c := c)
      { h with
        offset := hoffset, limit := hfed.limit, parsed := hfed.parsed, base := { h.base with } }
      { ordered := hordered.ordered, direct := hordered.direct,
        complete := hwhole.complete } hopened

/-- Where the receiving side starts from: no report was made from trailers while the loop still has
the stream. -/
theorem World.Stable.receiving (h : w.Stable) (hw : w.InOrder gapless)
    (hreports : w.Reports fun outcome recorded _ => outcome.fromTrailers → recorded = none)
    (howned : w.stream.loopOwned) : w.Receiving gapless w.control := by
  refine { hw with control := rfl, base := h.base, untold := fun outcome trailing hmem => ?_ }
  refine eq_false_of_ne_true fun htrailers => ?_
  cases hterminal : w.stream.terminal with
  | false => exact absurd (h.base.unended hterminal _ hmem) nofun
  | true =>
    have hforced := (h.settled.rejected howned hterminal).2
    have hnone : w.control.forced = none := hreports outcome trailing hmem htrailers
    exact absurd hforced (by simp [hnone])

/-- A report from the trailers is one of a stream without a recorded outcome. -/
def FromTrailers (outcome : Outcome) (recorded : Option Status) (_ : List (Option Status)) : Prop :=
  (outcome.status.code = .ok → outcome.fromTrailers) ∧ (outcome.fromTrailers → recorded = none)

theorem fromTrailers_reporting : Reporting FromTrailers where
  swept h := h
  report _ hok hdrained := ⟨hok, fun htrailers => (hdrained htrailers).unforced⟩

/-- A stream between two events, with what its receiving side keeps. -/
structure World.Ready (gapless : Prop) (w : World) : Prop extends w.Stable where
  intact : w.Intact gapless
  reports : w.Reports FromTrailers

theorem World.Ready.awakeIntact (h : w.Ready gapless) : w.awake.Intact gapless :=
  ⟨{ h.intact.1 with }, { h.intact.2 with }⟩

theorem World.Ready.wakes (h : w.Ready gapless) (hmoves : Moves w.awake w')
    (hsettled : w'.control.Settled) : w'.Ready gapless where
  base := hmoves.any.base h.base.awake
  settled := hsettled
  intact := hmoves.intact h.awakeIntact
  reports := (fromTrailers_reporting.invariant.moves hmoves.any h.base.awake h.reports).2

theorem processClientStreamCommands_intact (h : w.Ready gapless) (howned : w.stream.loopOwned)
    (hsubmitted : w.stream.streamId.isSome) :
    wp processClientStreamCommands (fun _ => World.Intact gapless)
      (fun _ => World.Intact gapless) w := by
  have hreceiving := h.receiving h.intact.1 (fun outcome trailing hmem =>
    (h.reports outcome trailing hmem).2) howned
  have hclosed : AppClosed fun w' => w'.Receiving gapless w.control ∧ w'.Intact gapless :=
    fun _ _ hmove h => ⟨h.1.app hmove, hmove.intact h.2⟩
  refine processClientStreamCommands_wp hclosed ⟨hreceiving, h.intact⟩ howned fun w₁ h₁ => ?_
  obtain ⟨hreceiving₁, hintact₁⟩ := h₁
  have hsame : w₁.stream.transportClosed = w.control.closed :=
    congrArg Control.closed hreceiving₁.control
  have htaken : w₁.taken.Receiving gapless w.control :=
    { hreceiving₁ with base := { hreceiving₁.base with } }
  have hintact : w₁.taken.Intact gapless :=
    ⟨Move.commandsTaken.inOrder hintact₁.1, Move.commandsTaken.whole hintact₁.2⟩
  have hundated : w₁.taken.undated.Intact gapless :=
    ⟨Move.inOrder (.deadline none) hintact.1, Move.whole (.deadline none) hintact.2⟩
  have hremoved : At w₁.taken.undated { w.control with entry := none } w₁.taken.undated :=
    ⟨.refl, congrArg (fun c : Control => { c with entry := none }) hreceiving₁.control,
      { hreceiving₁.base with }⟩
  refine obeyCommands_wp (fun hshut _ => ?_) (fun hshut huncancelled => ?_) (fun _ => hintact)
    (fun hopened _ resumeData resumeReceive => ?_) fun hopened huncancelled _ _ => ?_
  · have hunforced := (h.settled.waiting (hsame ▸ hshut) howned).2
    exact wp_ends (giveUp_unforced hremoved howned nofun hunforced)
      fun _ _ h₂ => h₂.moves.intact hundated
  · obtain ⟨hlive, hunforced⟩ := h.settled.waiting (hsame ▸ hshut) howned
    exact deliverInboundMessages_intact htaken hintact howned hlive hunforced huncancelled
  · have hmapped := (h.settled.kept howned hsubmitted).resolve_right (by simp [← hsame, hopened])
    have hc := h.settled.forcible hmapped
    refine wp_mono (processOpenCommands_reset _ resumeData resumeReceive hremoved
      { hc with }) (fun _ w₂ h₂ => ?_) fun _ w₂ h₂ => ?_
    · exact h₂.elim (fun h' => h'.moves.intact hundated) fun h' => h'.moves.intact hundated
    · exact h₂.elim (fun h' => h'.moves.intact hundated) fun h' => h'.moves.intact hundated
  · refine processOpenCommands_resume (fun hrst w₂ hmove hstream => ?_)
      (fun _ hmove => hmove.intact hintact) fun _ _ hmove => hmove.intact hintact
    have hrst : w.control.rst = false := hreceiving₁.control ▸ hrst
    have hunforced : w.control.forced = none := Option.not_isSome_iff_eq_none.mp fun hset =>
      by cases hrst.symm.trans (h.settled.reset howned hset)
    have hlive : w.control.terminal = false := eq_false_of_ne_true fun hset =>
      absurd (h.settled.rejected howned hset).2 (by simp [hunforced])
    exact wp_seq (deliverInboundMessages_intact (htaken.app hmove) (hmove.intact hintact) howned
      hlive hunforced (hstream ▸ huncancelled)) fun _ w₃ h₃ => returnDeferredCredit_intact w₃ h₃

theorem wake_intact (now id : ℕ) (h : w.Ready gapless) :
    wp (processStreamWake now id) (fun _ => World.Intact gapless) never w := by
  refine processStreamWake_wp now id h.base h.settled h.intact
    (fun expired w' _ _ h' => h'.moves.intact h.awakeIntact) fun w₁ h₁ => ?_
  exact h₁.tryCatch (processClientStreamCommands_intact (h.wakes h₁.moves h₁.settled) h₁.owned
    h₁.submitted) fun _ hintact h₃ => h₃.moves.intact hintact

theorem data_intact (data : Bytes) (h : w.Ready gapless) (hkept : gapless → w.log.refused = false) :
    wp (onMapped (onDataChunk data)) (fun _ => World.Intact gapless) never w := by
  unfold onMapped
  rw [wp_get_when]
  refine ⟨fun hmapped => ?_, fun _ => h.intact⟩
  have howned := (h.settled.mapped hmapped).1
  have hreceiving := h.receiving h.intact.1 (fun outcome trailing hmem =>
    (h.reports outcome trailing hmem).2) howned
  have hc := h.settled.forcible hmapped
  rw [wp_tryCatch]
  refine wp_mono (wp_and (onDataChunk_intact data hreceiving h.intact hc.opened hkept)
    (onDataChunk_any data (.self h.base) hc)) (fun _ _ h₁ => h₁.1) fun _ w₁ h₁ => ?_
  obtain ⟨hordered, c', hbreaks, hat⟩ := h₁
  refine wp_imp (failCallback_at hat.start (h.settled.listedBreaks hbreaks))
    fun _ w₂ h₂ => ⟨h₂.moves.inOrder hordered, ?_⟩
  have hterminal : w₂.stream.terminal := (congrArg Control.terminal h₂.control).trans
    (h.settled.failed_terminal hmapped hbreaks)
  exact ⟨fun hlive => (by cases hlive.symm.trans hterminal),
    fun hlive => by cases hlive.symm.trans hterminal⟩

def Event.isData : Event → Bool
  | .data _ => true
  | _ => false

/-- A chunk that arrives after the decoder has refused one leaves a gap. -/
def World.Gapless (w : World) (event : Event) : Prop := event.isData → w.log.refused = false

instance (w : World) (event : Event) : Decidable (w.Gapless event) :=
  inferInstanceAs (Decidable (_ → _))

theorem World.Ready.next (h : w.Ready gapless) (event : Event)
    (hevent : gapless → w.Gapless event) :
    (step w event).Ready gapless := by
  have hstable := h.toStable.step event
  refine { hstable with
    intact := ?_
    reports := fromTrailers_reporting.invariant.step h.toStable event h.reports }
  cases hreceiving : event.isReceiving with
  | false =>
    obtain ⟨_, _, hat⟩ := step_outer event hreceiving h.base h.settled
    exact hat.moves.intact h.intact
  | true =>
    refine exec_of_wp (wp_ends (?_ : wp (handleEvent event) (fun _ => World.Intact gapless)
      never w) fun _ _ h' => h')
    cases event with
    | wake now id => exact wake_intact now id h
    | data bytes => exact data_intact bytes h fun hgapless => hevent hgapless rfl
    | _ => exact Bool.noConfusion hreceiving

theorem World.IsOpened.ready (h : w.IsOpened) : w.Ready gapless := by
  refine { h.stable with intact := ⟨?_, ?_⟩, reports := ?_ }
  · have hlog := h.log
    have hstream := h.stream
    exact
      { offset := by rw [hstream]; exact Nat.le_refl _
        limit := by rw [hstream]; rfl
        parsed := fun _ => ⟨[], [], by rw [hlog]; exact .nil, by rw [hlog, hstream]; rfl,
          fun _ _ => rfl⟩
        sized := by rw [hstream]; rfl
        bounded := by rw [hstream]; exact Nat.zero_le _
        released := by rw [hstream]; exact nofun
        ordered := fun _ => by rw [hlog]; exact List.prefix_refl _
        direct := fun _ _ _ => by rw [hstream, hlog]; exact ⟨rfl, rfl⟩
        told := fun _ outcome trailing hmem => by rw [hlog] at hmem; cases hmem
        done := by rw [hstream]; exact nofun }
  · exact
      { starved := fun _ _ => by rw [h.stream]; exact .inl (Nat.succ_pos 4)
        complete := fun _ _ _ => by rw [World.queued, h.stream, h.log]; rfl }
  · intro outcome trailing hmem
    rw [h.log] at hmem
    cases hmem

/-! ## Runs -/

/-- What has been handed to the application of a stream that it has neither cancelled nor
released.  The last field is about the order within the log: a status from the trailers comes after
every message. -/
structure World.Delivers (w : World) : Prop where
  messages : ∃ frames rest,
    List.Forall₂ (Frame.IsFrame w.gzip w.stream.limits.maxMessageSize) frames w.log.decoded ∧
      w.log.received = frames.flatten ++ rest
  ordered : w.log.delivered <+: w.log.decoded
  direct : w.stream.terminal = false → w.stream.forcedStatus = none →
    w.stream.receivePaused = false → w.stream.inbound = [] ∧ w.stream.decoder.Starved
  sized : w.stream.inboundBuffered = (w.stream.inbound.map InboundMessage.bufferedSize).sum
  bounded : w.stream.inboundBuffered ≤ w.stream.limits.maxInboundBufferSize
  reported : ∀ before outcome trailing after,
    w.log.marks = before ++ .callback (.terminal outcome trailing) :: after →
    outcome.fromTrailers → before.filterMap Mark.message = w.log.decoded

/-- No message follows the terminal callback. -/
theorem World.Tracked.delivered_before (h : w.Tracked) {before after : List Mark}
    {outcome : Outcome} {trailing : List Entry}
    (hmarks : w.log.marks = before ++ .callback (.terminal outcome trailing) :: after) :
    w.log.delivered = before.filterMap Mark.message := by
  have hquiet := h.quiet
  rw [hmarks] at hquiet
  have hafter := (List.pairwise_cons.mp (List.pairwise_append.mp hquiet).2.1).1
  have hnone : after.filterMap Mark.message = [] := by
    refine List.filterMap_eq_nil_iff.mpr fun later hmem => ?_
    have hsilent := hafter later hmem (.inl rfl)
    cases later with
    | callback => cases hsilent
    | _ => rfl
  rw [Log.delivered, hmarks, List.filterMap_append, List.filterMap_cons_none rfl, hnone,
    List.append_nil]

theorem World.Intact.delivers (h : w.Intact True) (htracked : w.Tracked)
    (huncancelled : w.stream.cancelRequested = false) :
    w.Delivers := by
  obtain ⟨hordered, hwhole⟩ := h
  obtain ⟨frames, unfed, hframes, hreceived, _⟩ := hordered.parsed trivial
  exact
    { messages := ⟨frames, w.stream.decoder.available ++ unfed, hordered.limit ▸ hframes,
        by rw [hreceived, List.append_assoc]⟩
      ordered := hordered.ordered huncancelled
      direct := fun hlive hunforced hunpaused =>
        ⟨(hordered.direct hlive huncancelled hunpaused).1, hwhole.starved hlive hunforced⟩
      sized := hordered.sized
      bounded := hordered.bounded
      reported := fun before outcome trailing after hmarks htrailers => by
        rw [← htracked.delivered_before hmarks]
        refine hordered.told (.inl huncancelled) outcome trailing ?_ htrailers
        exact hmarks ▸ List.mem_append_right _ List.mem_cons_self }

theorem World.Ready.run (h : w.Ready gapless) {events : List Event}
    (hevents : gapless → Run.Meets step World.Gapless w events) :
    (Run.final step w events).Ready gapless := by
  induction events generalizing w with
  | nil => exact h
  | cons event rest ih =>
    exact ih (h.next event fun hgapless => (hevents hgapless).1) fun hgapless =>
      (hevents hgapless).2

/-- In every run in which no chunk arrives after a refused one, an application that does not cancel
is given the messages of the received bytes in order, and all of them before a status from the
trailers. -/
theorem messages_delivered_in_order (hw : w.IsOpened) (events : List Event)
    (hgapless : Run.Meets step World.Gapless w events)
    (huncancelled : (Run.final step w events).stream.cancelRequested = false) :
    (Run.final step w events).Delivers :=
  (hw.ready.run fun _ => hgapless).intact.delivers
    (tracked_invariant.run hw.stable events hw.tracked) huncancelled

/-- A stream for messages of at most eight bytes, with room for one of them. -/
def narrowWorld : World where
  stream := .init {} { maxMessageSize := 8, maxInboundBufferSize := 13 } .identity none
  gzip := { compress := id, decompress := fun _ _ => .error .malformedCompressedMessage }

theorem narrowWorld_opened : narrowWorld.IsOpened := ⟨rfl, rfl, rfl, rfl, rfl, rfl, rfl⟩

def responseHead : List Event :=
  [.wake 0 1, .beginHeaders .response, .header (ascii ":status") (ascii "200"),
    .header (ascii "content-type") (ascii "application/grpc"), .headersFrame false]

/-- A message of eight bytes and the start of another in three chunks, of which the decoder refuses
the second. -/
def refusedChunk : List Event :=
  responseHead ++ [.data [0, 0, 0, 0, 8, 1, 2, 3, 4, 5, 6, 7], .data [8, 0], .data [9]]

/-- The application is given a message that was never sent. -/
theorem refused_chunk_corrupts :
    let w := Run.final step narrowWorld refusedChunk
    w.log.received = [0, 0, 0, 0, 8, 1, 2, 3, 4, 5, 6, 7, 8, 0, 9] ∧
      w.log.delivered = [[1, 2, 3, 4, 5, 6, 7, 9]] ∧ w.stream.cancelRequested = false ∧
      w.stream.appReleased = false ∧ ¬w.Delivers := by
  have hreceived : (Run.final step narrowWorld refusedChunk).log.received =
      [0, 0, 0, 0, 8, 1, 2, 3, 4, 5, 6, 7, 8, 0, 9] := by decide +kernel
  have hdecoded : (Run.final step narrowWorld refusedChunk).log.decoded =
      [[1, 2, 3, 4, 5, 6, 7, 9]] := by decide +kernel
  refine ⟨hreceived, by decide +kernel, by decide +kernel, by decide +kernel, fun h => ?_⟩
  obtain ⟨frames, rest, hframes, hbytes⟩ := h.messages
  rw [hdecoded] at hframes
  cases hframes with
  | cons hframe hnone =>
    cases hnone
    obtain ⟨compressed, body, hencoded, hpayload⟩ := hframe
    cases compressed with
    | false =>
      obtain rfl : body = _ := hpayload
      obtain rfl := Except.ok.inj hencoded
      rw [hreceived] at hbytes
      simp [Frame.lengthBytes] at hbytes
    | true => cases hpayload

theorem messages_delivered_narrowWorld :
    (Run.final step narrowWorld (responseHead ++ [.data [0, 0, 0, 0, 1], .data [5]])).Delivers :=
  messages_delivered_in_order narrowWorld_opened _ (by decide +kernel) (by decide +kernel)

/-! ## Cancels and the status -/

/-- The first cancel to take effect is the end of the deliveries. -/
def World.CutShort (w : World) : Prop :=
  ∀ count, w.log.cancelledAt = some count →
    w.stream.cancelRequested ∧ w.log.delivered.length = count

theorem World.CutShort.app (h : w.CutShort) (hmove : AppMove w w') : w'.CutShort := by
  intro count hcount
  rw [hmove.delivered]
  cases hmove with
  | cancel =>
    refine ⟨rfl, ?_⟩
    cases hbefore : w.log.cancelledAt with
    | none => simpa [World.listed, hbefore] using hcount
    | some first =>
      obtain rfl : first = count := by simpa [World.listed, hbefore] using hcount
      exact (h first hbefore).2
  | release => exact ⟨rfl, (h count hcount).2⟩
  | _ => exact h count hcount

theorem World.CutShort.marked (h : w.CutShort) {event : Mark}
    (hevent : w.stream.cancelRequested → event.message = none) : (w.marked event).CutShort := by
  intro count hcount
  obtain ⟨hcancelled, hlength⟩ := h count hcount
  refine ⟨hcancelled, ?_⟩
  simpa [World.marked, Log.delivered, hevent hcancelled] using hlength

theorem AppMoves.cutShort (h : AppMoves w w') (hw : w.CutShort) : w'.CutShort :=
  AppClosed.moves (fun _ _ hmove h => World.CutShort.app h hmove) h hw

theorem cutShort_invariant : Invariant World.CutShort where
  awake h := h
  move hmove _ h := by
    cases hmove with
    | outer hmove =>
      cases hmove with
      | app hmove => exact h.app hmove
      | notice kind hkind => exact h.marked fun _ => notice_message hkind
      | terminate hlive happ | close errorCode hmapped happ => exact happ.cutShort h
      | terminateCall outcome hlive happ =>
        exact World.CutShort.marked (happ.cutShort h) fun _ => rfl
      | @loopRelease =>
        intro count hcount
        obtain ⟨hcancelled, hlength⟩ := h count hcount
        exact ⟨hcancelled, (congrArg List.length
          (delivered_ownerMarks _ .loopReleased _ rfl)).trans hlength⟩
      | _ => exact h
    | message payload compression henabled =>
      refine h.marked fun hcancelled => ?_
      obtain ⟨_, _, huncancelled, _⟩ := enabled_iff.mp henabled
      cases huncancelled.symm.trans hcancelled
    | flow => exact h

/-- In every run in which no cancel overtakes the last queued message of a closed stream, OK is
reported only when every decoded message has been delivered, and then no cancel has come before
any of them. -/
theorem ok_follows_every_message (hw : w.IsOpened) (events : List Event)
    (hquiet : .cancel ∉ (Run.final step w events).log.overtaking) :
    ∀ outcome trailing, .callback (.terminal outcome trailing) ∈
      (Run.final step w events).log.marks → outcome.status.code = .ok →
      (Run.final step w events).log.delivered = (Run.final step w events).log.decoded ∧
        ∀ count, (Run.final step w events).log.cancelledAt = some count →
          count = (Run.final step w events).log.decoded.length := by
  intro outcome trailing hmem hok
  have hready : (Run.final step w events).Ready False := hw.ready.run nofun
  have htrailers := (hready.reports outcome trailing hmem).1 hok
  have hall := hready.intact.1.told (.inr hquiet) outcome trailing hmem htrailers
  have hcut : (Run.final step w events).CutShort := cutShort_invariant.run hw.stable events
    fun count hcount => by rw [hw.log] at hcount; cases hcount
  exact ⟨hall, fun count hcount => hall ▸ (hcut count hcount).2.symm⟩

/-- An application that pauses at its first message; the twelfth time that the loop takes the
stream's mutex, another thread has cancelled the stream. -/
def overtakenWorld : World where
  stream := .init {} {} .identity none
  env := { callbacks := [{}, { action := .pause }], others := List.replicate 11 [] ++ [[.cancel]] }
  gzip := { compress := id, decompress := fun payload _ => .ok payload }

/-- An OK response with two empty messages, and a resume after the close. -/
def resumedAnswer : List Event :=
  answer [0, 0, 0, 0, 0, 0, 0, 0, 0, 0] ++ [.app .resumeReceive, .wake 0 1]

/-- The cancel takes effect before the second message, which is lost, and the status is OK. -/
theorem ok_after_cancel :
    overtakenWorld.IsOpened ∧
      .callback (.terminal ⟨⟨.ok, []⟩, true⟩ []) ∈
        (Run.final step overtakenWorld resumedAnswer).log.marks ∧
      (Run.final step overtakenWorld resumedAnswer).log.delivered = [[]] ∧
      (Run.final step overtakenWorld resumedAnswer).log.decoded = [[], []] ∧
      (Run.final step overtakenWorld resumedAnswer).log.cancelledAt = some 1 :=
  ⟨⟨rfl, rfl, rfl, rfl, rfl, rfl, rfl⟩, by decide +kernel, by decide +kernel, by decide +kernel,
    by decide +kernel⟩

theorem ok_follows_every_message_narrowWorld :
    (Run.final step narrowWorld resumedAnswer).log.delivered = [[], []] := by
  have h := ok_follows_every_message narrowWorld_opened resumedAnswer (by decide +kernel)
    ⟨⟨.ok, []⟩, true⟩ [] (by decide +kernel) rfl
  exact h.1.trans (by decide +kernel)

end GrpcLite.Client
