import GrpcLite.Client.StreamReading

/-!
# The end of a stream

From `openStream` to the terminal callback, whatever the application does in between, a stream
reports what `Receiver` makes of its response, unless something else decides its end.
-/

namespace GrpcLite.Client

open Prog

variable {w w' : World} {setting : Setting} {stage : Stage} {v : Receiver}

theorem AppMoves.faults (h : AppMoves w w') (hfaults : w.env.faults = []) : w'.env.faults = [] :=
  AppClosed.moves (I := fun w => w.env.faults = []) (fun _ _ hmove h => hmove.faults h) h hfaults

theorem faultless_invariant : Invariant fun w => w.env.faults = [] where
  awake h := h
  move hmove _ h := by
    cases hmove with
    | outer hmove =>
      cases hmove with
      | app hmove => exact hmove.faults h
      | terminate hlive happ | terminateCall outcome hlive happ
      | close errorCode hmapped happ => exact happ.faults h
      | _ => exact h
    | message => exact h
    | flow => exact h

theorem AppMoves.aborted (h : AppMoves w w') (haborted : w.Aborted) : w'.Aborted :=
  AppClosed.moves aborted_app h haborted

theorem Move.aborted (hmove : Move w w') (h : w.Aborted) : w'.Aborted := by
  cases hmove with
  | app hmove => exact aborted_app hmove h
  | swept => exact .inr (.inl (List.append_ne_nil_of_right_ne_nil _ nofun))
  | notice kind hkind =>
    refine h.marked ?_
    cases kind <;> first | rfl | cases hkind
  | terminate hlive happ => exact happ.aborted h
  | terminateCall outcome hlive happ howned hunreleased =>
    exact (happ.aborted h).ended hunreleased _
  | loopRelease =>
    rcases h with h | h | h | ⟨hreleased, hunended⟩
    · exact .inl h
    · exact .inr (.inl h)
    · exact .inr (.inr (.inl h))
    · refine .inr (.inr (.inr ⟨hreleased, fun event hmem => ?_⟩))
      rcases List.mem_append.mp hmem with hmem | hmem
      · exact hunended event hmem
      · rcases mem_ownerMarks hmem with rfl | rfl <;> rfl
  | close errorCode hmapped happ forced expired hforced =>
    have hsame : _ = w.stream.forcedStatus := congrArg Control.forced happ.control
    rcases happ.aborted h with h | h | ⟨status, hstatus, hcode⟩ | h
    · exact .inl h
    · exact .inr (.inl h)
    · rcases hforced with rfl | ⟨hnone, _⟩
      · exact .inr (.inr (.inl ⟨status, hsame.symm.trans hstatus, hcode⟩))
      · cases hstatus.symm.trans (hsame.trans hnone)
    · exact .inr (.inr (.inr h))
  | force status => exact h.force status
  | _ => exact h

theorem aborted_invariant : Invariant World.Aborted where
  awake h := h
  move hmove _ h := by
    cases hmove with
    | outer hmove => exact hmove.aborted h
    | message => exact h.marked rfl
    | flow => exact h

/-! ## Parts of the response -/

theorem step_data (bytes : Bytes) (hstable : w.Stable) (h : w.Reads setting .started v) :
    (step w (.data bytes)).Follows setting .started (v.data setting.gzip bytes) := by
  refine ⟨faultless_invariant.step hstable _ h.faults, ?_⟩
  refine exec_of_wp (I := fun w' : World => w'.Aborted ∨
    w'.Sees setting .started (v.data setting.gzip bytes) ∧
      (v.data setting.gzip bytes).Holds w'.stream.decoder) ?_
  show wp (onMapped (onDataChunk bytes)) _ _ w
  unfold onMapped
  rw [wp_get_when]
  refine ⟨fun _ => ?_, fun hnot => absurd h.mapped hnot⟩
  rw [wp_tryCatch]
  refine wp_mono (onDataChunk_follows bytes h) (fun _ _ h' => h'.2) ?_
  rintro _ w' ⟨v', D, h'⟩
  exact wp_ends (failCallback_aborts h') fun _ _ h'' => .inl h''

theorem step_part {piece : Part} {v' : Receiver} (hstable : w.Stable)
    (h : w.Follows setting .started v)
    (hpart : v.part setting.limit setting.gzip piece = some v') :
    (step w piece.stream).Follows setting .started v' := by
  obtain ⟨hfaults, haborted | ⟨hsees, hholds⟩⟩ := h
  · exact ⟨faultless_invariant.step hstable _ hfaults,
      .inl (aborted_invariant.step hstable _ haborted)⟩
  have hreads : w.Reads setting .started v := { hsees with faults := hfaults, holds := hholds }
  cases piece with
  | begin first => cases hpart; exact (step_beginHeaders first hreads).follows
  | field =>
    obtain ⟨r, hfield, rfl⟩ := Option.map_eq_some_iff.mp hpart
    exact (step_field hreads hfield).follows
  | frame endStream =>
    unfold Receiver.part at hpart
    dsimp only at hpart
    split at hpart
    · cases hpart
    · rename_i hkind
      cases hpart
      exact step_headersFrame endStream hreads hkind
  | data bytes => cases hpart; exact step_data bytes hstable hreads
  | last =>
    cases hpart
    refine onMapped_step (J := World.Follows setting .started v) hsees.mapped ?_
    exact hreads.follows.change rfl id (fun h' => { h' with }) rfl

/-! ## The application and the request -/

theorem step_app (action : AppAction) (h : w.Follows setting stage v) :
    (step w (.app action)).Follows setting stage v :=
  exec_of_wp (I := World.Follows setting stage v) <|
    wp_ends (perform_ends tracks_app false action w h) fun _ _ h' => h'

theorem readClientStreamData_follows (outputLength : ℕ) :
    Ends (World.Follows setting stage v) (readClientStreamData outputLength) := by
  have hchange : ∀ {w w' : World}, w.Follows setting stage v → _ → _ → _ → _ →
    w'.Follows setting stage v := World.Tracks.change
  unfold readClientStreamData invokeWritableCallback modifyStream modifyLog
  refine .bind (lock_ends tracks_app) fun _ => .bind .get fun w => ?_
  dsimp only
  split
  · refine .ite (fun _ => ?_) fun _ => ?_
    · exact .modify fun _ h => hchange h rfl id (fun h' => { h' with }) rfl
    · exact .modify fun _ h => hchange h rfl id (fun h' => { h' with }) rfl
  · refine .bind (.modify fun _ h => hchange h rfl id (fun h' => { h' with }) rfl) fun _ =>
      .ite (fun _ => ?_) fun _ => .modify fun _ h => hchange h rfl id (fun h' => { h' with }) rfl
    refine .bind (.modify fun _ h => hchange h rfl id (fun h' => { h' with }) rfl) fun _ =>
      .when fun _ => .bind .get fun s => ?_
    exact invokeCallback_ends tracks_app _ fun _ h _ => h.marked rfl rfl

theorem onMapped_unmapped {x : ClientM Unit} (hunmapped : w.mapped = false) :
    exec (onMapped x) w = w := by
  refine exec_of_wp (I := (· = w)) ?_
  unfold onMapped
  rw [wp_get_when]
  exact ⟨fun hmapped => (by cases hunmapped.symm.trans hmapped), fun _ => rfl⟩

theorem step_read (outputLength : ℕ) (h : w.Follows setting stage v) :
    (step w (.read outputLength)).Follows setting stage v := by
  by_cases hmapped : w.mapped
  · exact onMapped_step hmapped (readClientStreamData_follows outputLength w h)
  · have hsame : step w (.read outputLength) = w := onMapped_unmapped (by simpa using hmapped)
    rw [hsame]
    exact h

/-! ## The terminal callback -/

def Mark.report : Mark → Option (Status × List Entry)
  | .callback (.terminal outcome trailing) => some (outcome.status, trailing)
  | _ => none

/-- A stream that has reported what its response says. -/
structure World.Reported (setting : Setting) (v : Receiver) (errorCode : ℕ) (w : World) :
    Prop where
  ended : w.stream.terminal
  report : w.log.marks.filterMap Mark.report =
    [(v.outcome errorCode, v.reading.trailingMetadata)]
  shown : setting.onHeaders → w.log.marks.filterMap Mark.headers = v.shown

section Reported

variable {errorCode : ℕ}

theorem World.Reported.extend (h : w.Reported setting v errorCode) {tail : List Mark}
    (hended : w'.stream.terminal) (hmarks : w'.log.marks = w.log.marks ++ tail)
    (htail : ∀ event ∈ tail, event.isCallback = false) : w'.Reported setting v errorCode where
  ended := hended
  report := by
    have hnone : tail.filterMap Mark.report = [] := by
      rw [List.filterMap_eq_nil_iff]
      intro event hmem
      cases event with
      | callback => exact absurd (htail _ hmem) nofun
      | _ => rfl
    rw [hmarks, List.filterMap_append, h.report, hnone, List.append_nil]
  shown := by
    intro hregistered
    have hnone : tail.filterMap Mark.headers = [] := by
      rw [List.filterMap_eq_nil_iff]
      intro event hmem
      cases event with
      | callback => exact absurd (htail _ hmem) nofun
      | _ => rfl
    rw [hmarks, List.filterMap_append, h.shown hregistered, hnone, List.append_nil]

theorem reported_app : AppClosed (World.Reported setting v errorCode) := by
  intro w w' hmove h
  cases hmove with
  | release =>
    refine h.extend h.ended rfl fun event hmem => ?_
    rcases mem_ownerMarks hmem with rfl | rfl <;> rfl
  | _ => exact { h with }

theorem reported_invariant : Invariant (World.Reported setting v errorCode) where
  awake h := { h with }
  move hmove hbase h := by
    have hended := h.ended
    cases hmove with
    | outer hmove =>
      cases hmove with
      | app hmove => exact reported_app hmove h
      | notice kind hkind henabled => simp [ClientStreamState.enabled, hended] at henabled
      | terminate hlive | terminateCall outcome hlive =>
        exact Bool.noConfusion (hlive.symm.trans hended)
      | loopRelease =>
        refine h.extend hended rfl fun event hmem => ?_
        rcases mem_ownerMarks hmem with rfl | rfl <;> rfl
      | close errorCode hmapped happ => exact { AppClosed.moves reported_app happ { h with } with }
      | _ => exact { h with }
    | message payload compression henabled => simp [ClientStreamState.enabled, hended] at henabled
    | flow => exact { h with }

/-! ### The report -/

/-- `finalizeClientStream` makes the same checks as `finalize` first. -/
theorem finalOutcome_verdict (s : ClientStreamState) :
    (finalOutcome s false).status = match s.forcedStatus with
      | some forced => forced
      | none =>
        if s.streamError ≠ noError then streamErrorStatus s.streamError
        else match s.reading.verdict with
          | .error status => status
          | .ok grpcStatus =>
            if s.reading.responseMetadataInvalid then .init .internal "invalid response metadata"
            else match s.decoder.finish with
              | .error _ => .init .internal "malformed streaming response"
              | .ok _ => ⟨.fromInt grpcStatus, s.reading.text⟩ := by
  unfold finalOutcome Reading.verdict Reading.text
  dsimp only [ClientStreamState.reading]
  cases hforced : s.forcedStatus with
  | some => rfl
  | none =>
    by_cases herror : s.streamError ≠ noError
    · simp [herror]
    by_cases hsaw : s.sawResponseHeaders
    · cases hhttp : s.httpStatus with
      | none => simp [herror, hsaw]
      | some httpStatus =>
        by_cases hok : httpStatus = 200
        · by_cases htype : s.contentTypeGrpc
          · cases hgrpc : s.grpcStatus with
            | none => simp [herror, hsaw, hok, htype]
            | some =>
              by_cases hencoding : s.responseEncodingInvalid
              · simp [herror, hsaw, hok, htype, hencoding]
              by_cases hmetadata : s.responseMetadataInvalid
              · simp [herror, hsaw, hok, htype, hencoding, hmetadata]
              cases hfinish : s.decoder.finish with
              | error => simp [herror, hsaw, hok, htype, hencoding, hmetadata]
              | ok =>
                cases hmessage : s.grpcMessage with
                | none | some => simp [herror, hsaw, hok, htype, hencoding, hmetadata]
          · simp [herror, hsaw, hok, htype]
        · simp [herror, hsaw, hok]
    · simp [herror, hsaw]

theorem World.Reads.finalOutcome (h : w.Reads setting (.closed errorCode) v) :
    (finalOutcome w.stream false).status = v.outcome errorCode := by
  rw [finalOutcome_verdict, h.forced, h.reading, h.error]
  unfold Receiver.outcome
  cases hforced : v.forced with
  | some => rfl
  | none =>
    rw [(h.holds hforced).1]
    rfl

def World.Finishing (setting : Setting) (stage : Stage) (v : Receiver) (w : World) : Prop :=
  w.Aborted ∨ w.stream.terminal ∧
    ({ w with stream := { w.stream with terminal := false } } : World).Sees setting stage v

theorem finishing_app : AppClosed (World.Finishing setting stage v) := by
  rintro w w' hmove (haborted | ⟨hended, hsees⟩)
  · exact .inl (aborted_app hmove haborted)
  cases hmove with
  | send index encoded compression hsend hopen | closeSend hopen
  | resume hopen => cases hopen.unended.symm.trans hended
  | cancel howned hunended => cases hunended.symm.trans hended
  | release inside howned =>
    have hmove : AppMove w _ := .release inside howned
    exact .inl (.inr (.inr (.inr ⟨rfl, hmove.unended hsees.unmarked⟩)))
  | _ => exact .inr ⟨hended, { hsees with }⟩

def World.Over (setting : Setting) (v : Receiver) (errorCode : ℕ) (w : World) : Prop :=
  w.Aborted ∨ w.Reported setting v errorCode

theorem over_app : AppClosed (World.Over setting v errorCode) :=
  fun _ _ hmove h => h.imp (aborted_app hmove) (reported_app hmove)

theorem invokeTerminalCallback_over {outcome : Outcome}
    (h : w.Finishing setting (.closed errorCode) v)
    (houtcome : outcome.status = v.outcome errorCode) :
    wp (invokeTerminalCallback outcome) (fun _ => World.Over setting v errorCode) never w := by
  unfold invokeTerminalCallback beginTerminalCallback
  rw [wp_bind]
  refine wp_ends_seq (lock_ends finishing_app w h) fun _ w₁ h₁ => ?_
  rw [wp_get_bind, wp_pure, wp_ite]
  refine ⟨fun howned => ?_, fun hgone => ?_⟩
  · rw [wp_get_bind, wp_bind]
    refine runCallback_wp over_app ?_
    rcases h₁ with haborted | ⟨hended, hsees⟩
    · refine .inl (haborted.ended ?_ _)
      simp only [Bool.and_eq_true, Bool.not_eq_true'] at howned
      exact howned.2
    · refine .inr { ended := hended, report := ?_, shown := fun hregistered => ?_ }
      · have hnone : w₁.log.marks.filterMap Mark.report = [] := by
          rw [List.filterMap_eq_nil_iff]
          intro event hmem
          have hterminal : event.isTerminal = false := hsees.unmarked event hmem
          cases event with
          | callback kind =>
            cases kind with
            | terminal => exact absurd hterminal nofun
            | _ => rfl
          | _ => rfl
        have htrailing : w₁.stream.trailingMetadata = v.reading.trailingMetadata :=
          congrArg Reading.trailingMetadata hsees.reading
        show (w₁.log.marks ++ [_]).filterMap Mark.report = _
        rw [List.filterMap_append, hnone]
        show [(outcome.status, w₁.stream.trailingMetadata)] = _
        rw [houtcome, htrailing]
      · show (w₁.log.marks ++ [_]).filterMap Mark.headers = _
        rw [List.filterMap_append, show w₁.log.marks.filterMap Mark.headers = v.shown from
          hsees.shown hregistered]
        exact List.append_nil _
  · rcases h₁ with haborted | ⟨_, hsees⟩
    · exact .inl haborted
    · refine absurd ?_ hgone
      rw [show w₁.stream.appOwned from hsees.appOwned,
        show w₁.stream.appReleased = false from hsees.unreleased]
      rfl

theorem terminalizeStream_over {outcome : Outcome}
    (h : w.Tracks setting (.closed errorCode) v fun _ => True)
    (houtcome : w.Aborted ∨ outcome.status = v.outcome errorCode) :
    wp (terminalizeStream outcome) (fun _ => World.Over setting v errorCode) never w := by
  rcases houtcome with haborted | houtcome
  · exact wp_imp (terminalizeStream_aborted outcome w haborted) fun _ _ h' => .inl h'
  unfold terminalizeStream removeStreamDeadline modifyStream
  rw [wp_get_bind, wp_bind]
  have hremoved : Ends (World.Tracks setting (.closed errorCode) v fun _ => True)
      (when w.stream.loopOwned (modify fun w => { w with stream := { w.stream with
        deadlineEntry := none } }) : ClientM Unit) :=
    .when fun _ => .modify fun _ h => h.change rfl id (fun h' => { h' with }) rfl
  refine wp_imp (hremoved w h) fun _ w₁ h₁ => ?_
  refine wp_seq (lock_ends tracks_app w₁ h₁) fun _ w₂ h₂ => ?_
  rw [wp_get_when]
  refine ⟨fun hlive => ?_, fun hended => ?_⟩
  · rw [wp_modify_bind, wp_when]
    refine ⟨fun _ => invokeTerminalCallback_over ?_ houtcome, fun hgone => ?_⟩
    · exact h₂.2.imp id fun h' => ⟨rfl, { h'.1 with unended := rfl }⟩
    · rcases h₂.2 with haborted | ⟨hsees, _⟩
      · exact .inl haborted
      · exact absurd ⟨hsees.appOwned, by simpa using hsees.unreleased⟩ hgone
  · rcases h₂.2 with haborted | ⟨hsees, _⟩
    · exact .inl haborted
    · exact absurd (by simpa using hsees.unended) hended

theorem releaseStreamLoopOwnership_over :
    Ends (World.Over setting v errorCode) releaseStreamLoopOwnership := by
  have hmarked : ∀ {w : World} (event : Mark), event.isCallback = false →
      w.Over setting v errorCode → (w.marked event).Over setting v errorCode := by
    intro w event hevent h
    refine h.imp (·.marked ?_) fun h' => h'.extend h'.ended rfl ?_
    · cases event with
      | callback => exact absurd hevent nofun
      | _ => rfl
    · rintro _ hmem
      rw [List.mem_singleton.mp hmem]
      exact hevent
  unfold releaseStreamLoopOwnership destroy mark modifyLog
  refine .bind (lock_ends over_app) fun _ => .bind (.modify fun _ h => ?_) fun _ =>
    .bind (.modify fun _ h => hmarked .loopReleased rfl h) fun _ => .bind .get fun s =>
      .when fun _ =>
    .modify fun _ h => hmarked .destroyed rfl h
  exact h.imp id fun h' => { h' with }

theorem finalizeRelease_over (h : w.Follows setting (.closed errorCode) v) :
    wp (do finalizeClientStream; releaseStreamLoopOwnership)
      (fun _ => World.Over setting v errorCode) never w := by
  refine wp_seq (?_ : wp _ (fun _ => World.Over setting v errorCode) never w)
    fun _ w' h' => releaseStreamLoopOwnership_over w' h'
  have hnotified : Ends (World.Follows setting (.closed errorCode) v) notifyRemoteEnd := by
    unfold notifyRemoteEnd modifyStream
    refine .bind .get fun s => .when fun _ => .bind (.modify fun _ h => ?_) fun _ => ?_
    · exact World.Tracks.change h rfl id (fun h' => { h' with }) rfl
    · exact invokeCallback_ends tracks_app _ fun _ h _ => h.marked rfl rfl
  unfold finalizeClientStream
  refine wp_seq (hnotified w h) fun _ w₁ h₁ => ?_
  have htracks : w₁.Tracks setting (.closed errorCode) v fun _ => True :=
    ⟨h₁.1, h₁.2.imp id fun h' => ⟨h'.1, trivial⟩⟩
  have houtcome : w₁.Aborted ∨ (finalOutcome w₁.stream false).status = v.outcome errorCode :=
    h₁.2.imp id fun h' => World.Reads.finalOutcome { h'.1 with faults := h₁.1, holds := h'.2 }
  rw [wp_get_bind]
  dsimp only
  rw [wp_ite]
  refine ⟨fun _ => ?_, fun _ => ?_⟩
  · rw [wp_bind]
    exact drawFault_unfailing h₁.1 (terminalizeStream_over htracks houtcome)
  · rw [wp_bind, wp_pure]
    exact terminalizeStream_over htracks houtcome

end Reported

/-! ## Wakes -/

/-- A stream that the transport has closed waits for its application to take messages. -/
def World.Unread (w : World) : Prop :=
  ¬(w.stream.transportClosed ∧ ¬w.stream.receivePaused ∧ w.stream.inbound = [])

/-- The stream goes on as the response says, or has ended. -/
def World.Proceeds (setting : Setting) (stage : Stage) (v : Receiver) (w : World) : Prop :=
  w.Aborted ∨ w.Reads setting stage v ∧ w.Unread ∨
    ∃ errorCode, stage = .closed errorCode ∧ w.Reported setting v errorCode

theorem World.Follows.proceeds (h : w.Follows setting stage v) (hunread : w.Unread) :
    w.Proceeds setting stage v :=
  h.2.imp id fun h' => .inl ⟨{ h'.1 with faults := h.1, holds := h'.2 }, hunread⟩

theorem World.Follows.proceedsOpen (h : w.Follows setting stage v)
    (hopen : stage.errorCode = none) :
    w.Proceeds setting stage v := by
  obtain ⟨hfaults, haborted | ⟨hsees, hholds⟩⟩ := h
  · exact .inl haborted
  · refine .inr (.inl ⟨{ hsees with faults := hfaults, holds := hholds }, fun hclosed => ?_⟩)
    have htransport := hsees.transport
    rw [hopen, hclosed.1] at htransport
    exact Bool.noConfusion htransport

theorem follows_unread_app : AppClosed fun w => w.Follows setting stage v ∧ w.Unread := by
  rintro w w' hmove ⟨h, hunread⟩
  refine ⟨tracks_app hmove h, ?_⟩
  unfold World.Unread
  rw [show w'.stream.transportClosed = w.stream.transportClosed from
    congrArg Control.closed hmove.control, show w'.stream.receivePaused =
      w.stream.receivePaused from
    congrArg FlowPart.receivePaused hmove.flow, show w'.stream.inbound = w.stream.inbound from
    congrArg FlowPart.inbound hmove.flow]
  exact hunread

variable {errorCode : ℕ} {course : Course} {v : Receiver}

theorem World.Over.proceeds (h : w.Over setting v errorCode) :
    w.Proceeds setting (.closed errorCode) v :=
  h.imp id fun h' => .inr ⟨errorCode, rfl, h'⟩

theorem decodeAvailableMessages_follows (h : w.Follows setting stage v) :
    wp decodeAvailableMessages (fun _ => World.Follows setting stage v)
      (fun _ w' => w'.Aborted ∨ w'.Sees setting stage v) w := by
  obtain ⟨hfaults, haborted | ⟨hsees, hholds⟩⟩ := h
  · refine wp_mono ((faultless_delivering.and aborted_delivering).decodeAvailableMessages w
      ⟨hfaults, haborted⟩) (fun _ _ h' => ⟨h'.1, .inl h'.2⟩) fun _ _ h' => .inl h'.2
  have hfed : w.Tracks setting stage v (· = w.stream.decoder) := ⟨hfaults, .inr ⟨hsees, rfl⟩⟩
  unfold decodeAvailableMessages
  rw [wp_get_bind]
  refine wp_mono (decodeLoop_tracks _ hfed) (fun _ w₁ h₁ => ?_) fun _ _ h' => h'.2.imp id And.left
  refine ⟨h₁.1, h₁.2.imp id fun h' => ⟨h'.1, fun hnone => ?_⟩⟩
  rw [(hholds hnone).2.drain_eq h'.2.symm]
  exact hholds hnone

theorem deliverInboundMessages_proceeds (h : w.Follows setting stage v) :
    wp deliverInboundMessages (fun _ => World.Proceeds setting stage v)
      (fun _ w' => w'.Aborted ∨ w'.Sees setting stage v) w := by
  have hunpaused : World.Follows setting stage v { w with stream := { w.stream with
      receivePaused := false } } := h.change rfl id (fun h' => { h' with }) rfl
  refine tracks_conveying.deliverInboundMessages hunpaused
    (fun w' h' => decodeAvailableMessages_follows h') (fun w' h' hclosed _ _ => ?_)
    fun w' h' hunread => World.Follows.proceeds h' hunread
  rcases h'.2 with haborted | ⟨hsees, _⟩
  · have hover := Exits.bind finalizeClientStream_aborted fun _ =>
      releaseStreamLoopOwnership_aborted
    exact wp_ends (hover w' haborted) fun _ _ h'' => .inl h''
  · cases stage with
    | closed => exact wp_ends (finalizeRelease_over h') fun _ _ h'' => h''.proceeds
    | pending | started => cases hsees.transport.symm.trans hclosed

theorem deliverInboundMessages_aborted : Keeps World.Aborted deliverInboundMessages := by
  intro w h
  refine aborted_delivering.deliverInboundMessages h (fun w' h' _ _ _ => ?_) (fun _ h' => h')
    fun _ _ h' => h'
  have hover := Exits.bind finalizeClientStream_aborted fun _ => releaseStreamLoopOwnership_aborted
  exact wp_ends (hover w' h') fun _ _ h'' => h''

theorem returnDeferredCredit_aborted : Keeps World.Aborted returnDeferredCredit :=
  .bind .get fun _ => .when fun _ => .bind (external_keeps aborted_app _) fun _ =>
    .modify fun _ h => h

theorem obeyCommands_aborted (s : ClientStreamState) : Keeps World.Aborted (obeyCommands s) := by
  unfold obeyCommands removeStreamDeadline processOpenCommands resetCancelled modifyStream
  refine .bind (.when fun _ => .modify fun _ h => h) fun _ => .ite (fun _ => ?_) fun _ => ?_
  · exact .ite (fun _ => (giveUp_aborted _ _).keeps) fun _ => .when fun _ =>
      deliverInboundMessages_aborted
  · refine .bind (.when fun _ => .bind .get fun _ => .when fun _ => ?_) fun _ => .bind .get fun _ =>
      .bind (.when fun _ => external_keeps aborted_app _) fun _ => .when fun _ =>
      .bind deliverInboundMessages_aborted fun _ => returnDeferredCredit_aborted
    exact .bind (.when fun _ => .modify fun _ h => h.force _) fun _ =>
      .bind (external_keeps aborted_app _) fun _ => .modify fun _ h => h

theorem obeyCommands_proceeds (h : w.Follows setting stage v) (hunread : w.Unread) :
    wp (obeyCommands w.stream) (fun _ => World.Proceeds setting stage v)
      (fun _ w' => w'.Aborted ∨ w'.Sees setting stage v) w.taken := by
  obtain ⟨hfaults, haborted | ⟨hsees, hholds⟩⟩ := h
  · exact wp_mono (obeyCommands_aborted w.stream w.taken haborted) (fun _ _ h' => .inl h')
      fun _ _ h' => .inl h'
  have htaken : World.Follows setting stage v w.taken := ⟨hfaults, .inr ⟨{ hsees with }, hholds⟩⟩
  have hkept : ¬(w.stream.cancelRequested || w.stream.appReleased) = true := by
    simp [hsees.uncancelled, hsees.unreleased]
  refine obeyCommands_wp (fun _ hcancel => absurd hcancel hkept)
    (fun _ _ => deliverInboundMessages_proceeds htaken) (fun _ => htaken.proceeds hunread)
    (fun _ hcancel => absurd hcancel hkept) fun hopen _ _ _ => ?_
  have hstage : stage.errorCode = none := by
    rw [hsees.transport] at hopen
    simpa using hopen
  have happ {w' : World} (hmove : AppMove w.taken w') : w'.Follows setting stage v :=
    tracks_app hmove htaken
  refine processOpenCommands_resume (fun _ w₁ hmove _ => ?_)
    (fun _ hmove => (happ hmove).proceedsOpen hstage)
    fun _ _ hmove => (happ hmove).2.imp_right And.left
  refine wp_seq (deliverInboundMessages_proceeds (happ hmove)) fun _ w₂ h₂ => ?_
  rcases h₂ with haborted | ⟨hreads, hunread⟩ | ⟨errorCode, rfl, _⟩
  · exact wp_mono (returnDeferredCredit_aborted w₂ haborted) (fun _ _ h' => .inl h')
      fun _ _ h' => .inl h'
  · unfold returnDeferredCredit
    rw [wp_get_when]
    refine ⟨fun _ => ?_, fun _ => .inr (.inl ⟨hreads, hunread⟩)⟩
    rw [wp_bind]
    exact external_unfailing hreads.faults (.inr (.inl ⟨{ hreads with }, hunread⟩))
  · exact nomatch hstage

theorem processClientStreamCommands_aborted : Keeps World.Aborted processClientStreamCommands := by
  intro w h
  by_cases howned : w.stream.loopOwned
  · exact processClientStreamCommands_wp aborted_app h howned fun w₁ h₁ =>
      obeyCommands_aborted w₁.stream w₁.taken h₁
  · unfold processClientStreamCommands
    rw [wp_get_when]
    exact ⟨fun hyes => absurd hyes howned, fun _ => h⟩

theorem commands_proceed (h : w.Aborted ∨ w.Follows setting stage v ∧ w.Unread) :
    wp (tryCatch processClientStreamCommands fun _ =>
      handleTransportFailure "stream command failed")
      (fun _ => World.Proceeds setting stage v) (fun _ => World.Proceeds setting stage v) w := by
  rw [wp_tryCatch]
  have haborts : ∀ w₁ : World, w₁.Aborted ∨ w₁.Sees setting stage v →
      wp (handleTransportFailure "stream command failed") (fun _ => World.Proceeds setting stage v)
        (fun _ => World.Proceeds setting stage v) w₁ := by
    rintro w₁ (haborted | hsees)
    · exact wp_ends (handleTransportFailure_aborted _ w₁ haborted) fun _ _ h' => .inl h'
    · exact wp_ends (handleTransportFailure_aborts _ hsees.running
        (by rw [hsees.connected]; exact ⟨nofun, nofun⟩) hsees.registered hsees.unended)
        fun _ _ h' => .inl h'
  by_cases haborted : w.Aborted
  · exact wp_mono (processClientStreamCommands_aborted w haborted) (fun _ _ h' => .inl h')
      fun _ w₁ h₁ => haborts w₁ (.inl h₁)
  · have hfollows := h.resolve_left haborted
    have hsees := (hfollows.1.2.resolve_left haborted).1
    exact wp_mono (processClientStreamCommands_wp follows_unread_app hfollows hsees.loopOwned
      fun w₁ h₁ => obeyCommands_proceeds h₁.1 h₁.2) (fun _ _ h' => h') fun _ w₁ h₁ => haborts w₁ h₁

theorem World.Follows.awake (h : w.Follows setting stage v) : w.awake.Follows setting stage v :=
  h.change rfl (fun h' => h') (fun h' => { h' with }) rfl

theorem step_wake (now id : ℕ) (h : w.Follows setting stage v) (hunread : w.Unread)
    (hsubmitted : stage ≠ .pending) (hstable : w.Stable) :
    (step w (.wake now id)).Proceeds setting stage v := by
  rcases h.2 with haborted | ⟨hsees, _⟩
  · exact .inl (aborted_invariant.step hstable _ haborted)
  have hid : w.stream.streamId ≠ none := by
    intro hnone
    have hstage := hsees.submitted
    rw [hnone] at hstage
    cases stage with
    | pending => exact hsubmitted rfl
    | _ => exact absurd hstage nofun
  refine exec_of_wp (I := World.Proceeds setting stage v) ?_
  show wp (processStreamWake now id) _ _ w
  unfold processStreamWake
  rw [wp_get_when]
  refine ⟨fun _ => ?_, fun _ => h.proceeds hunread⟩
  rw [wp_modify_bind, wp_get_bind]
  dsimp only
  rw [if_neg hid, wp_bind, wp_pure, wp_when]
  exact ⟨fun _ => commands_proceed (.inr ⟨h.awake, hunread⟩), fun hnot => absurd rfl hnot⟩

/-! ### The first wake -/

theorem insertDeadline_follows : Ends (World.Follows setting stage v) insertDeadline := by
  unfold insertDeadline deadlineHeapInsertOrUpdate modifyStream
  refine .bind .get fun s => ?_
  split
  · exact .pure _
  · refine .bind .get fun s => .bind (.when fun _ w h => external_unfailing h.1 h) fun _ =>
      .modify fun _ h => World.Tracks.change h rfl id (fun h' => { h' with }) rfl

theorem submitClientStream_follows (id : ℕ) (h : w.Reads setting .pending v) :
    wp (submitClientStream id) (fun _ => World.Follows setting .started v) never w := by
  unfold submitClientStream
  rw [wp_bind]
  refine external_unfailing h.faults ?_
  rw [wp_bind]
  refine external_unfailing h.faults ?_
  rw [wp_modify]
  exact ⟨h.faults, .inr ⟨{ h.toSees with mapped := rfl, submitted := rfl }, h.holds⟩⟩

/-- The request of a stream whose time has not run out is submitted on an active connection. -/
theorem startStream_follows (now id : ℕ) (h : w.Follows setting .pending v)
    (hdue : hasExpired setting.deadline now = false) :
    wp (startStream now id)
      (fun submitted w' => w'.Aborted ∨ submitted = true ∧ w'.Follows setting .started v)
      never w := by
  have hgiveUp :
      Ends World.Aborted (do giveUp .unavailable "stream submission failed"; pure false) :=
    .bind (giveUp_aborted _ _) fun _ => .pure _
  unfold startStream
  rw [wp_tryCatch]
  refine wp_ends_seq (insertDeadline_follows w h) fun _ w₁ h₁ => ?_
  refine wp_ends_seq (lock_ends tracks_app w₁ h₁) fun _ w₂ h₂ => ?_
  rcases h₂.2 with haborted | ⟨hsees, hholds⟩
  · refine wp_mono ((?_ : Keeps World.Aborted _) w₂ haborted) (fun _ _ h' => .inl h') fun _ w₃ h₃ =>
      wp_imp (hgiveUp w₃ h₃) fun _ _ h' => .inl h'
    unfold submitClientStream modifyStream
    refine .bind .get fun s => .ite (fun _ => ?_) fun _ => .ite (fun _ => ?_) fun _ =>
      .ite (fun _ => ?_) fun _ => ?_
    · exact .bind (giveUp_aborted _ _).keeps fun _ => .pure _
    · exact .bind (.modify fun _ h => h) fun _ => .bind (giveUp_aborted _ _).keeps fun _ => .pure _
    · exact .bind (giveUp_aborted _ _).keeps fun _ => .pure _
    · refine .bind (.bind (external_keeps aborted_app _) fun _ =>
        .bind (external_keeps aborted_app _) fun _ => .modify fun _ h => h) fun _ => .pure _
  · rw [wp_get_bind, hsees.uncancelled, hsees.unreleased, hsees.deadline, hdue, hsees.connected]
    rw [if_neg nofun, if_neg nofun, if_neg (not_not.mpr rfl)]
    refine wp_ends_seq
      (submitClientStream_follows id { hsees with faults := h₂.1, holds := hholds })
      fun _ _ h' => .inr ⟨rfl, h'⟩

theorem step_firstWake (now id : ℕ) (h : w.Follows setting .pending v)
    (hqueued : w.stream.wakeQueued) (hdue : hasExpired setting.deadline now = false)
    (hstable : w.Stable) : (step w (.wake now id)).Proceeds setting .started v := by
  rcases h.2 with haborted | ⟨hsees, _⟩
  · exact .inl (aborted_invariant.step hstable _ haborted)
  have hid : w.stream.streamId = none := Option.isNone_iff_eq_none.mp hsees.submitted
  refine exec_of_wp (I := World.Proceeds setting .started v) ?_
  show wp (processStreamWake now id) _ _ w
  unfold processStreamWake
  rw [wp_get_when]
  refine ⟨fun _ => ?_, fun hnot => absurd hqueued hnot⟩
  rw [wp_modify_bind, wp_get_bind]
  dsimp only
  rw [if_pos hid]
  refine wp_ends_seq (startStream_follows now id h.awake hdue) fun submitted w₁ h₁ => ?_
  rw [wp_when]
  rcases h₁ with haborted | ⟨hyes, hstarted⟩
  · exact ⟨fun _ => commands_proceed (.inl haborted), fun _ => .inl haborted⟩
  · refine ⟨fun _ => commands_proceed ?_, fun hnot => absurd hyes hnot⟩
    rcases hstarted.proceedsOpen rfl with haborted | ⟨_, hunread⟩ | ⟨_, hclosed, _⟩
    · exact .inl haborted
    · exact .inr ⟨hstarted, hunread⟩
    · exact nomatch hclosed

/-! ## The close of the transport -/

theorem closeOutcome_aborted (h : w.Aborted) (errorCode now : ℕ) :
    ({ w with stream := closeOutcome w.stream errorCode now } : World).Aborted := by
  unfold closeOutcome
  split
  · exact h.force _
  split
  · exact h.force _
  · exact h

theorem settleClose_proceeds {now : ℕ} (h : w.Follows setting (.closed errorCode) v)
    (hdue : errorCode = cancelCode → hasExpired setting.deadline now = false) :
    wp (settleClose errorCode now) (fun _ => World.Proceeds setting (.closed errorCode) v)
      never w := by
  have hsettled : World.Follows setting (.closed errorCode) v
      { w with stream := closeOutcome w.stream errorCode now } := by
    obtain ⟨hfaults, haborted | ⟨hsees, hholds⟩⟩ := h
    · exact ⟨hfaults, .inl (closeOutcome_aborted haborted errorCode now)⟩
    · have hsame : closeOutcome w.stream errorCode now = w.stream := by
        unfold closeOutcome
        rw [if_neg (by simp [hsees.uncancelled]), if_neg]
        rintro ⟨hcancel, hexpired⟩
        rw [hsees.deadline, hdue hcancel] at hexpired
        exact Bool.noConfusion hexpired
      rw [hsame]
      exact ⟨hfaults, .inr ⟨{ hsees with }, hholds⟩⟩
  unfold settleClose modifyStream
  rw [wp_modify_bind, wp_get_when]
  refine ⟨fun _ => ?_, fun hunsettled => hsettled.proceeds fun hread =>
    hunsettled (.inr (.inr (.inr hread.2)))⟩
  exact wp_imp (finalizeRelease_over hsettled) fun _ _ h' => h'.proceeds

theorem step_streamClose (errorCode now : ℕ) (h : w.Follows setting .started v)
    (hdue : errorCode = cancelCode → hasExpired setting.deadline now = false) (hstable : w.Stable) :
    (step w (.streamClose errorCode now)).Proceeds setting (.closed errorCode) v := by
  obtain ⟨hfaults, haborted | ⟨hsees, hholds⟩⟩ := h
  · exact .inl (aborted_invariant.step hstable _ haborted)
  refine onMapped_step hsees.mapped ?_
  unfold onStreamClose modifyStream
  rw [wp_modify_bind, wp_bind]
  have hclosed : World.Follows setting (.closed errorCode) v { w with
      mapped := false
      stream := { w.stream with
        deadlineEntry := none
        transportClosed := true
        streamError := errorCode } } :=
    ⟨hfaults, .inr ⟨{ hsees with mapped := rfl, transport := rfl, error := rfl }, hholds⟩⟩
  refine wp_imp (lock_ends tracks_app _ hclosed) fun _ w₁ h₁ => ?_
  rw [wp_modify_bind]
  exact settleClose_proceeds (World.Tracks.change h₁ rfl id (fun h' => { h' with }) rfl) hdue

/-! ## Whole runs -/

theorem World.Proceeds.follows (h : w.Proceeds setting .started v) (hfaults : w.env.faults = []) :
    w.Follows setting .started v := by
  rcases h with haborted | ⟨hreads, _⟩ | ⟨_, hclosed, _⟩
  · exact ⟨hfaults, .inl haborted⟩
  · exact hreads.follows
  · exact nomatch hclosed

theorem run_started {turns : List Turn} {v' : Receiver} (hstable : w.Stable)
    (h : w.Follows setting .started v)
    (hresponse : v.receive setting.limit setting.gzip (turns.filterMap Turn.response) = some v') :
    (Run.final step w (turns.map Turn.stream)).Follows setting .started v' := by
  unfold Receiver.receive at hresponse
  induction turns generalizing w v with
  | nil => cases hresponse; exact h
  | cons turn rest ih =>
    cases turn with
    | part piece =>
      rw [show (Turn.part piece :: rest).filterMap Turn.response =
        piece :: rest.filterMap Turn.response from rfl, List.foldlM_cons] at hresponse
      obtain ⟨next, hpart, hrest⟩ := Option.bind_eq_some_iff.mp hresponse
      exact ih (hstable.step _) (step_part hstable h hpart) hrest
    | app action => exact ih (hstable.step _) (step_app action h) hresponse
    | wake now id =>
      refine ih (hstable.step _)
        (World.Proceeds.follows ?_ (faultless_invariant.step hstable _ h.1))
        hresponse
      rcases h.proceedsOpen rfl with haborted | ⟨_, hunread⟩ | ⟨_, hclosed, _⟩
      · exact .inl (aborted_invariant.step hstable _ haborted)
      · exact step_wake now id h hunread nofun hstable
      · exact nomatch hclosed
    | read outputLength => exact ih (hstable.step _) (step_read outputLength h) hresponse

theorem step_unmapped (piece : Part) (hunmapped : w.mapped = false) : step w piece.stream = w := by
  cases piece with
  | field f => cases f <;> exact onMapped_unmapped hunmapped
  | _ => exact onMapped_unmapped hunmapped

theorem step_closed (turn : Turn) (hstable : w.Stable)
    (h : w.Proceeds setting (.closed errorCode) v) :
    (step w turn.stream).Proceeds setting (.closed errorCode) v := by
  rcases h with haborted | ⟨hreads, hunread⟩ | ⟨_, hclosed, hreported⟩
  · exact .inl (aborted_invariant.step hstable _ haborted)
  · have hsame : ∀ {w₁ : World}, w₁ = w → w₁.Proceeds setting (.closed errorCode) v :=
      fun heq => heq ▸ .inr (.inl ⟨hreads, hunread⟩)
    cases turn with
    | part piece => exact hsame (step_unmapped piece hreads.mapped)
    | app action =>
      refine exec_of_wp (I := World.Proceeds setting (.closed errorCode) v) ?_
      refine wp_ends (perform_ends follows_unread_app false action w ⟨hreads.follows, hunread⟩)
        fun _ _ h' => h'.1.proceeds h'.2
    | wake now id => exact step_wake now id hreads.follows hunread nofun hstable
    | read => exact hsame (onMapped_unmapped hreads.mapped)
  · exact .inr (.inr ⟨_, hclosed, reported_invariant.step hstable _ hreported⟩)

theorem run_closed (turns : List Turn) (hstable : w.Stable)
    (h : w.Proceeds setting (.closed errorCode) v) :
    (Run.final step w (turns.map Turn.stream)).Proceeds setting (.closed errorCode) v := by
  induction turns generalizing w with
  | nil => exact h
  | cons turn rest ih => exact ih (hstable.step _) (step_closed turn hstable h)

/-! ### From the opening to the end -/

/-- The course of a stream: what its application does first, the wake that submits its request, its
response, the close of the transport, and what its application does then. -/
structure Course where
  before : List AppAction := []
  now : ℕ
  id : ℕ
  turns : List Turn
  errorCode : ℕ
  closedAt : ℕ
  after : List Turn := []
  deriving DecidableEq, Repr

namespace Course

def opening (course : Course) : List Event :=
  course.before.map .app ++ .wake course.now course.id :: course.turns.map Turn.stream

def events (course : Course) : List Event :=
  course.opening ++ .streamClose course.errorCode course.closedAt :: course.after.map Turn.stream

def response (course : Course) : List Part := course.turns.filterMap Turn.response

/-- The deadline has passed neither when the request is submitted nor when a cancel closes it. -/
def InTime (course : Course) (deadline : Option ℕ) : Prop :=
  hasExpired deadline course.now = false ∧
    (course.errorCode = cancelCode → hasExpired deadline course.closedAt = false)

end Course

/-- A stream as `openStream` returns it, on a connected channel with enough memory. -/
structure World.IsReady (w : World) : Prop extends w.IsOpened where
  connected : w.connection = .active
  faults : w.env.faults = []

def Setting.of (w : World) : Setting where
  limit := w.maxResponseHeaderListSize
  gzip := w.gzip
  deadline := w.stream.deadline
  onHeaders := w.stream.callbacks.onHeaders

/-- What a stream has made of its response before it comes. -/
def Receiver.fresh (maxMessageSize : ℕ) : Receiver where
  decoder := { maxMessageSize := maxMessageSize, compression := .identity }

theorem World.IsReady.follows (h : w.IsReady) :
    w.Follows (.of w) .pending (.fresh w.stream.limits.maxMessageSize) := by
  refine ⟨h.faults, .inr ⟨?_, ?_⟩⟩
  · exact
      { limit := rfl, gzip := rfl, deadline := rfl, onHeaders := rfl, running := h.running
        connected := h.connected, registered := h.registered, mapped := h.unmapped
        transport := by rw [h.stream]; rfl
        error := by rw [h.stream]; rfl
        submitted := by rw [h.stream]; rfl
        loopOwned := by rw [h.stream]; rfl
        appOwned := by rw [h.stream]; rfl
        unreleased := by rw [h.stream]; rfl
        uncancelled := by rw [h.stream]; rfl
        unended := by rw [h.stream]; rfl
        unmarked := by rw [h.log]; exact nofun
        fits := by rw [h.stream]; rfl
        reading := by rw [h.stream]; rfl
        headersCalled := by rw [h.stream]; rfl
        forced := by rw [h.stream]; rfl
        shown := fun _ => by rw [h.log]; rfl }
  · rw [h.stream]
    exact fun _ => ⟨rfl, .inl (Nat.zero_lt_succ 4)⟩

theorem AppMove.wakeQueued (hmove : AppMove w w') (h : w.stream.wakeQueued) :
    w'.stream.wakeQueued := by
  cases hmove <;> simp_all [World.listed]

theorem run_pending (actions : List AppAction) (hstable : w.Stable)
    (h : w.Follows setting .pending v) (hqueued : w.stream.wakeQueued) :
    (Run.final step w (actions.map .app)).Stable ∧
      (Run.final step w (actions.map .app)).Follows setting .pending v ∧
      (Run.final step w (actions.map .app)).stream.wakeQueued := by
  induction actions generalizing w with
  | nil => exact ⟨hstable, h, hqueued⟩
  | cons action rest ih =>
    refine ih (hstable.step _) (step_app action h) ?_
    refine exec_of_wp (I := fun w : World => w.stream.wakeQueued) ?_
    exact wp_ends (perform_ends (fun _ _ hmove h => hmove.wakeQueued h) false action w hqueued)
      fun _ _ h' => h'

theorem run_response (hready : w.IsReady) (hintime : course.InTime w.stream.deadline)
    (hresponse : (Receiver.fresh w.stream.limits.maxMessageSize).receive w.maxResponseHeaderListSize
      w.gzip course.response = some v) :
    (Run.final step w course.opening).Stable ∧
      (Run.final step w course.opening).Follows (.of w) .started v := by
  have hqueued : w.stream.wakeQueued := by rw [hready.stream]; rfl
  obtain ⟨hstable₁, hpending, hqueued₁⟩ :=
    run_pending course.before hready.stable hready.follows hqueued
  unfold Course.opening
  rw [Run.final_append, Run.final_cons]
  have hsubmitted := step_firstWake course.now course.id hpending hqueued₁ hintime.1 hstable₁
  have hstable₂ := hstable₁.step (.wake course.now course.id)
  have hstarted := hsubmitted.follows (faultless_invariant.step hstable₁ _ hpending.1)
  have hstable₃ := Run.invariant_always (I := World.Stable) (fun _ event h => h.step event)
    (course.turns.map Turn.stream) hstable₂
  exact ⟨hstable₃, run_started hstable₂ hstarted hresponse⟩

theorem run_course (hready : w.IsReady) (hintime : course.InTime w.stream.deadline)
    (hresponse : (Receiver.fresh w.stream.limits.maxMessageSize).receive w.maxResponseHeaderListSize
      w.gzip course.response = some v) :
    (Run.final step w course.events).Proceeds (.of w) (.closed course.errorCode) v := by
  obtain ⟨hstable, hread⟩ := run_response hready hintime hresponse
  unfold Course.events
  rw [Run.final_append, Run.final_cons]
  have hclosed := step_streamClose course.errorCode course.closedAt hread hintime.2 hstable
  exact run_closed course.after (hstable.step _) hclosed

theorem run_course_quota {status : Status} (hready : w.IsReady)
    (hintime : course.InTime w.stream.deadline)
    (hresponse : (Receiver.fresh w.stream.limits.maxMessageSize).receive w.maxResponseHeaderListSize
      w.gzip course.response = some v) (hforced : v.forced = some status)
    (hquota : status.code = .resourceExhausted) : (Run.final step w course.events).Aborted := by
  obtain ⟨hstable, hread⟩ := run_response hready hintime hresponse
  have haborted : (Run.final step w course.opening).Aborted := by
    rcases hread.2 with h | ⟨hsees, _⟩
    · exact h
    · exact .inr (.inr (.inl ⟨status, hsees.forced.trans hforced, hquota⟩))
  unfold Course.events
  rw [Run.final_append]
  exact aborted_invariant.run hstable _ haborted

end GrpcLite.Client
