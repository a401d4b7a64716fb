import GrpcLite.Server.Reach

/-!
# The steps of the reactor

Each event of a stream is a sequence of moves that begins and ends with nothing in hand.
-/

namespace GrpcLite.Server

open Prog

/-! ## Request messages -/

def Live (c₀ : Config) (hand : Hand) (w : World) : Prop :=
  Reach c₀ hand w ∧ w.stream.streamingActive = true

section Receiving

variable {c₀ : Config} {hand : Hand} {w : World}

theorem Live.app {w' : World} (h : Live c₀ hand w) (h' : AppMoves w w') : Live c₀ hand w' :=
  ⟨h.1.app h', h'.same.active.trans h.2⟩

theorem Live.failStreaming (code : Code) (text : String) (h : Live c₀ hand w) :
    wp (failStreaming code text)
      (fun _ w' => Reach c₀ hand w' ∧ w'.stream.streamingActive = false) never w :=
  failStreaming_halts code text h.1 (h.1.base.unfailed h.2) (h.1.base.started h.2)

theorem Hand.message_none (hfree : hand.message = none) : { hand with message := none } = hand := by
  rw [← hfree]

/-- A decoded message is given to the handler; no other thread can have paused or stopped the
call since it was decoded. -/
theorem deliverMessage_reaches (message : Frame.DecodedMessage) (hfree : hand.message = none)
    (h : Live c₀ { hand with message := some message.payload } w)
    (hopen : w.stream.receivePaused = false) :
    wp (deliverMessage message) (fun result w' => Reach c₀ hand w' ∧ result ≠ .exhausted)
      never w := by
  unfold deliverMessage modifyStreaming modifyStream
  rw [wp_modify_bind]
  refine wp_seq (lock_moves _ .refl) fun _ w₁ h₁ => ?_
  have hencoded := (h.1.quiet (.requestEncoding _) rfl).app h₁
  have hactive : w₁.stream.streamingActive = true := h₁.same.active.trans h.2
  have hopen₁ : w₁.stream.receivePaused = false := h₁.same.paused.trans hopen
  rw [wp_get_bind, wp_ite]
  refine ⟨fun hstopped => ?_, fun _ => ?_⟩
  · simp [hactive, hopen₁] at hstopped
  have hcalled := hencoded.quiet (.message message.payload rfl hactive hopen₁) rfl
  rw [show { ({ hand with message := some message.payload } : Hand) with message := none } = hand
    from Hand.message_none hfree] at hcalled
  rw [wp_modify_bind]
  refine wp_seq (callback_moves _) fun run w₂ h₂ => ?_
  refine wp_seq (lock_moves w₂ .refl) fun _ w₃ h₃ => ?_
  have hlive : Live c₀ hand w₃ := Live.app ⟨hcalled, hactive⟩ (h₂.trans h₃)
  rw [wp_modify_bind, wp_ite]
  refine ⟨fun _ => ?_, fun _ => ?_⟩
  · rw [wp_modify_bind, wp_bind]
    have hfailed : Live c₀ hand _ := ⟨hlive.1.quiet (.messageFailed hlive.2) rfl, hlive.2⟩
    exact wp_imp (hfailed.failStreaming _ _) fun _ _ h₄ => ⟨h₄.1, nofun⟩
  · rw [wp_get_bind, wp_modify_bind, wp_ite]
    have hdone := hlive.1.quiet (.messageDone (decide (run.action = .pause)) hlive.2) rfl
    have hpaused : (w₃.stream.streamingActive &&
        decide (run.action = .pause ∧ ¬w₃.stream.resumeRequested)) =
        (decide (run.action = .pause) && !w₃.stream.resumeRequested) := by
      simp [hlive.2]
    rw [← hpaused] at hdone
    exact ⟨fun _ => ⟨hdone, nofun⟩, fun _ => ⟨hdone, nofun⟩⟩

/-- The decoder has no whole frame left and nothing keeps the end of the request back. -/
structure World.Exhausted (w : World) : Prop where
  active : w.stream.streamingActive = true
  opened : w.stream.receivePaused = false
  starved : ∀ st, w.stream.streaming = some st →
    ∃ oom, (Frame.Decoder.nextMessage w.gzip st.decoder oom).1 = .ok none

section

variable (hfree : hand.message = none)

include hfree

theorem deliverNext_reaches (hfed : hand.unfed = []) (h : Reach c₀ hand w) :
    wp deliverNext (fun result w' => Reach c₀ hand w' ∧ (result = .exhausted → w'.Exhausted))
      never w := by
  unfold deliverNext
  refine wp_seq (lock_reaches w h) fun _ w₁ h₁ => ?_
  rw [wp_get_bind, wp_ite]
  refine ⟨fun _ => ⟨h₁, nofun⟩, fun hopen => ?_⟩
  obtain ⟨hactive, hopened⟩ : w₁.stream.streamingActive = true ∧ w₁.stream.receivePaused =
    false := by
    simpa using hopen
  split
  · exact ⟨h₁, nofun⟩
  · rename_i streaming hstreaming
    rw [wp_bind]
    refine drawFault_wp fun oom faults => ?_
    have hlive : Live c₀ hand { w₁ with env := { w₁.env with faults := faults } } :=
      ⟨h₁.env _, hactive⟩
    split
    · rename_i err decoder hnext
      rw [wp_bind]
      cases err <;> exact wp_imp (hlive.failStreaming _ _) fun _ _ h₂ => ⟨h₂.1, nofun⟩
    · rename_i hnext
      refine ⟨hlive.1, fun _ => ⟨hactive, hopened, fun st hst => ⟨oom, ?_⟩⟩⟩
      obtain rfl : streaming = st := Option.some.inj (hstreaming.symm.trans hst)
      rw [hnext]
    · rename_i message decoder hnext
      unfold modifyStreaming modifyStream
      rw [wp_modify_bind]
      have hmoved := hlive.1.quiet (.decoded oom message streaming.decoder decoder
        (by rw [hstreaming, Option.map_some]) hactive hopened hnext hfed hfree) rfl
      exact wp_imp (deliverMessage_reaches message hfree ⟨hmoved, hactive⟩ hopened)
        fun result _ h₂ => ⟨h₂.1, fun hexhausted => absurd hexhausted h₂.2⟩

theorem completeStreamingRemoteEnd_reaches (hfed : hand.unfed = [])
    (h : Reach c₀ hand w) (hexhausted : w.Exhausted)
    (hreceived : w.stream.streaming.any (·.remoteEndReceived)) :
    wp completeStreamingRemoteEnd (fun _ => Reach c₀ hand) never w := by
  have hlive : Live c₀ hand w := ⟨h, hexhausted.active⟩
  unfold completeStreamingRemoteEnd
  rw [wp_get_bind]
  split
  · exact h
  · rename_i streaming hstreaming
    rw [wp_when]
    refine ⟨fun hnew => ?_, fun _ => h⟩
    split
    · exact wp_imp (hlive.failStreaming _ _) fun _ _ h₁ => h₁.1
    · rename_i hwhole
      unfold modifyStreaming modifyStream
      obtain ⟨oom, hnone⟩ := hexhausted.starved streaming hstreaming
      rw [hstreaming, Option.any_some] at hreceived
      have hended :=
        h.quiet (.remoteEnd streaming oom hstreaming hexhausted.active hexhausted.opened
        hreceived (by simpa using hnew) hnone hwhole hfed hfree) rfl
      rw [wp_modify_bind]
      refine wp_seq (callback_moves _) fun run w₁ h₁ => ?_
      have hlive₁ : Live c₀ hand w₁ := Live.app ⟨hended, hexhausted.active⟩ h₁
      rw [wp_when]
      exact ⟨fun _ => wp_imp (hlive₁.failStreaming _ _) fun _ _ h₂ => h₂.1, fun _ => hlive₁.1⟩

theorem deliverRounds_reaches (hfed : hand.unfed = []) (rounds : ℕ) :
    Ends (Reach c₀ hand) (deliverRounds rounds) := by
  induction rounds with
  | zero => exact .pure _
  | succ rounds ih =>
    intro w h
    unfold deliverRounds
    refine wp_seq (deliverNext_reaches hfree hfed h) fun result w₁ h₁ => ?_
    cases result with
    | stopped => exact h₁.1
    | again => exact ih w₁ h₁.1
    | exhausted =>
      rw [wp_get_when]
      exact ⟨fun hreceived =>
        completeStreamingRemoteEnd_reaches hfree hfed h₁.1 (h₁.2 rfl) hreceived, fun _ => h₁.1⟩

end

theorem deliverStreamingMessages_reaches (hand : Hand) (hfree : hand.message = none)
    (hfed : hand.unfed = []) :
    Ends (Reach c₀ hand) deliverStreamingMessages := by
  refine .bind .get fun w => ?_
  split
  · exact .pure _
  · exact deliverRounds_reaches hfree hfed _

theorem receiveStreamingData_reaches (hand : Hand) (bytes : Bytes) (hfree : hand.message = none)
    (h : Reach c₀ { hand with unfed := bytes } w) (hstarted : w.stream.streaming.isSome) :
    wp (receiveStreamingData bytes)
      (fun copied w' => copied = true ∧ Reach c₀ { hand with unfed := [] } w' ∨
        Reach c₀ { hand with unfed := bytes } w' ∧ w'.stream.streamingActive = false) never w := by
  unfold receiveStreamingData
  rw [wp_get_bind]
  split
  · rename_i hnone
    exact absurd hnone (started_ne_none hstarted)
  · rename_i streaming hstreaming
    refine wp_seq (lock_moves w .refl) fun _ w₁ h₁ => ?_
    have hreach := h.app h₁
    rw [wp_get_bind, wp_ite]
    refine ⟨fun hinactive => .inr ⟨hreach, by simpa using hinactive⟩, fun hactive => ?_⟩
    rw [not_not] at hactive
    rw [wp_bind]
    refine drawFault_wp fun oom faults => ?_
    have hdecoder : w₁.stream.streaming.map (·.decoder) = some streaming.decoder := by
      rw [h₁.same.map_streaming (·.decoder) fun _ => rfl, hstreaming, Option.map_some]
    unfold modifyStreaming modifyStream
    rw [wp_get_bind, wp_modify_bind]
    -- a failed call keeps the chunk in hand
    have hfailed :
        ∀ err, (streaming.decoder.feedBounded bytes w₁.limits.maxInboundBufferSize oom).1 =
        .error err → Live c₀ { hand with unfed := bytes } { w₁ with
          env := { w₁.env with faults := faults }
          stream := { w₁.stream with streaming := w₁.stream.streaming.map fun st => { st with
            decoder :=
              (streaming.decoder.feedBounded bytes w₁.limits.maxInboundBufferSize oom).2 } } } :=
      fun err herr => ⟨((hreach.quiet (.feedFailed streaming.decoder _ oom err hdecoder hactive
        (Prod.ext herr rfl)) rfl).env _), hactive⟩
    split
    · rename_i hresult
      exact wp_seq ((hfailed _ hresult).failStreaming _ _) fun _ _ h₂ => .inr h₂
    · rename_i hresult
      exact wp_seq ((hfailed _ hresult).failStreaming _ _) fun _ _ h₂ => .inr h₂
    · rename_i hresult
      have hfed := (hreach.quiet (.fed streaming.decoder _ oom hdecoder hactive
        (Prod.ext hresult rfl)) rfl).env { w₁.env with faults := faults }
      exact wp_seq (deliverStreamingMessages_reaches { hand with unfed := [] } hfree rfl _ hfed)
        fun _ _ h₂ => .inl ⟨rfl, h₂⟩

def World.nativeFailed (w : World) : World :=
  { w with log := { w.log with callbackFailed := true } }

theorem Reach.callbackFailed (h : Reach c₀ hand w)
    (hfed : hand.unfed = [] ∨ w.stream.streamingActive = false) :
    Reach c₀ { hand with chunk := 0, unfed := [], owed := 0 } w.nativeFailed :=
  h.quiet (.callbackFailed hfed) rfl

theorem consumeConnection_reaches {length : ℕ} {Q : Unit → World → Prop} (h : Reach c₀ hand w)
    (howed : hand.owed = length) (hfed : hand.unfed = [] ∨ w.stream.streamingActive = false)
    (hok : ∀ w', Reach c₀ { hand with owed := 0 } w' → w'.stream = w.stream → Q () w') :
    wp (tryCatch (consumeConnection length) fun _ => throw .callbackFailure) Q
      (fun _ w' => Reach c₀ { hand with chunk := 0, unfed := [], owed := 0 } w'.nativeFailed)
        w := by
  unfold consumeConnection
  rw [wp_tryCatch, wp_bind]
  refine external_wp (fun faults => ?_) fun faults => ?_
  · rw [wp_modify]
    subst howed
    exact hok _ ((h.env _).quiet .connectionCredit rfl) rfl
  · rw [wp_throw]
    exact (h.env _).callbackFailed hfed

theorem onStreamingData_reaches (bytes : Bytes)
    (h : Reach c₀ { chunk := bytes.length, unfed := bytes, owed := bytes.length } w)
    (hstarted : w.stream.streaming.isSome) :
    wp (onStreamingData bytes) (fun _ => Reach c₀ {})
      (fun _ w' => Reach c₀ {} w'.nativeFailed) w := by
  unfold onStreamingData
  rw [wp_bind]
  refine wp_mono (Q := fun copied w₁ => (copied = true ∧
      Reach c₀ { chunk := bytes.length, unfed := [], owed := bytes.length } w₁ ∨
      Reach c₀ { chunk := bytes.length, unfed := bytes, owed := bytes.length } w₁ ∧
        w₁.stream.streamingActive = false) ∧ w₁.stream.streaming.isSome) (E := never) ?_
    (fun copied w₁ ⟨h₁, hstarted₁⟩ => ?_) fun _ _ hfalse => hfalse.elim
  · refine wp_imp (receiveStreamingData_reaches
      { chunk := bytes.length, unfed := bytes, owed := bytes.length } bytes rfl h.root hstarted)
      fun copied w₁ h₁ => ?_
    rcases h₁ with ⟨hcopied, h₁⟩ | ⟨h₁, hinactive⟩
    · exact ⟨.inl ⟨hcopied, h.trans h₁⟩, h₁.moves.started hstarted⟩
    · exact ⟨.inr ⟨h.trans h₁, hinactive⟩, h₁.moves.started hstarted⟩
  rw [wp_bind]
  rcases h₁ with ⟨rfl, h₁⟩ | ⟨h₁, hinactive⟩
  · refine consumeConnection_reaches h₁ rfl (.inl rfl) fun w₂ h₂ hsame => ?_
    rw [wp_get_when]
    refine ⟨fun ⟨_, hactive⟩ => ?_, fun hno => ?_⟩
    · rw [wp_ite]
      refine ⟨fun hpaused => ?_, fun hopen => ?_⟩
      · split
        · exact h₂.callbackFailed (.inl rfl)
        · rename_i credit hcredit
          have hsum : credit = w₂.stream.deferredStreamCredit + bytes.length := by
            unfold checkedAdd at hcredit
            split at hcredit
            · exact (Option.some.inj hcredit).symm
            · cases hcredit
          subst hsum
          exact h₂.quiet (.deferCredit rfl hactive hpaused) rfl
      · unfold consumeStream
        rw [wp_tryCatch, wp_bind]
        refine external_wp (fun faults => ?_) fun faults => ?_
        · exact (h₂.env _).quiet (.streamCredit rfl hactive (by simpa using hopen)) rfl
        · exact (h₂.env _).callbackFailed (.inl rfl)
    · have hinactive : w₂.stream.streamingActive = false := by simpa using hno
      exact h₂.quiet (.withholdCredit (hsame ▸ hstarted₁) hinactive) rfl
  · refine consumeConnection_reaches h₁ rfl (.inr hinactive) fun w₂ h₂ hsame => ?_
    rw [wp_get_when]
    refine ⟨fun ⟨_, hactive⟩ => ?_, fun _ => ?_⟩
    · rw [hsame] at hactive
      cases hinactive.symm.trans hactive
    · exact h₂.quiet (.withholdCredit (hsame ▸ hstarted₁) (hsame ▸ hinactive)) rfl

theorem onRequestBody_reaches (bytes : Bytes)
    (h : Reach c₀ { chunk := bytes.length, unfed := bytes, owed := bytes.length } w)
    (hnone : w.stream.streaming = none) :
    wp (onRequestBody bytes) (fun _ => Reach c₀ {})
      (fun _ w' => Reach c₀ {} w'.nativeFailed) w := by
  have hinactive : w.stream.streamingActive = false := by
    by_contra hactive
    exact started_ne_none (h.base.started (by simpa using hactive)) hnone
  -- the credit for the chunk, once the body has taken it
  have hcredit : ∀ w₁ : World,
      Reach c₀ { chunk := bytes.length, unfed := bytes, owed := bytes.length } w₁ →
      w₁.stream.streaming = none → w₁.stream.streamingActive = false →
      wp (tryCatch (do consumeConnection bytes.length; consumeStream bytes.length)
        fun _ => throw .callbackFailure) (fun _ => Reach c₀ {})
        (fun _ w' => Reach c₀ {} w'.nativeFailed) w₁ := by
    intro w₁ h₁ hnone₁ hinactive₁
    simp only [consumeConnection, consumeStream, wp_tryCatch, wp_bind, wp_modify, wp_throw]
    refine external_wp (fun faults => ?_) fun faults => (h₁.env _).callbackFailed (.inr hinactive₁)
    have hpaid := (h₁.env { w₁.env with faults := faults }).quiet .connectionCredit rfl
    refine external_wp (fun faults' => ?_) fun faults' =>
      (hpaid.env _).callbackFailed (.inr hinactive₁)
    exact (hpaid.env _).quiet (.requestCredit hnone₁) rfl
  unfold onRequestBody modifyStream
  rw [wp_get_bind, wp_bind, wp_when]
  refine ⟨fun _ => ?_, fun _ => hcredit w h hnone hinactive⟩
  rw [wp_ite]
  refine ⟨fun _ => ?_, fun _ => ?_⟩
  · exact hcredit _ (h.quiet (.bodyTooLarge hnone) rfl) hnone hinactive
  · rw [wp_bind, wp_tryCatch]
    refine external_wp (fun faults => ?_) fun faults => (h.env _).callbackFailed (.inr hinactive)
    exact hcredit _ ((h.env _).quiet (.body hnone) rfl) hnone hinactive

theorem onDataChunk_reaches (bytes : Bytes) (h : Reach c₀ {} w)
    (hopen : w.stream.streaming.any (·.remoteEndReceived) = false) :
    wp (onDataChunk bytes) (fun _ => Reach c₀ {}) (fun _ w' => Reach c₀ {} w'.nativeFailed) w := by
  unfold onDataChunk
  rw [wp_modify_bind, wp_get_bind, wp_ite]
  have hreceived := h.quiet (.received bytes ⟨rfl, rfl, rfl⟩ hopen) rfl
  refine ⟨fun hstarted => onStreamingData_reaches bytes hreceived hstarted, fun hnone => ?_⟩
  exact onRequestBody_reaches bytes hreceived (by simpa using hnone)

theorem receiveStreamingEnd_reaches : Ends (Reach c₀ {}) receiveStreamingEnd := by
  refine .bind .get fun _ => ?_
  split
  · exact .pure _
  · exact .when fun _ => .bind (.modify fun _ h => h.quiet .remoteEndReceived rfl) fun _ =>
      deliverStreamingMessages_reaches _ rfl rfl

end Receiving

/-! ## Commands -/

section Commands

variable {c₀ : Config} {hand : Hand} {w : World} {rest : List CommandAction}

/-- As `Reach`, and the response headers of an active call are settled. -/
def Settled (c₀ : Config) (hand : Hand) (w : World) : Prop :=
  Reach c₀ hand w ∧ (w.stream.streamingActive → w.stream.responseHeadersSubmitted)

theorem Settled.stop {w' : World} (h : Settled c₀ hand w) (h' : Stops ⟨hand, w⟩ hand w') :
    Settled c₀ hand w' := by
  refine ⟨h.1.stop h', fun hactive => ?_⟩
  have hsame : w'.stream.responseHeadersSubmitted = w.stream.responseHeadersSubmitted :=
    h'.moves.same.headersSubmitted
  rw [hsame]
  exact h.2 (h'.moves.active hactive)

theorem processInitialMetadata_settled (entries : List Entry) (compression : Compression)
    (h : Reach c₀ { batch := .initialMetadata entries compression :: rest } w) :
    wp (processInitialMetadata entries compression)
      (fun _ => Settled c₀ { batch := .initialMetadata entries compression :: rest }) never w := by
  unfold processInitialMetadata modifyStream
  refine wp_seq (lock_reaches w h) fun _ w₁ h₁ => ?_
  rw [wp_get_when]
  refine ⟨fun hopen => ?_, fun hclosed => ⟨h₁, fun hactive => ?_⟩⟩
  · have hnew : w₁.stream.responseHeadersSubmitted = false := by simpa using hopen.2.2
    have hannounced : ∀ outcome,
        Settled c₀ { batch := .initialMetadata entries compression :: rest }
          (w₁.announce (w₁.stream.negotiate compression) outcome) := fun outcome =>
      ⟨h₁.quiet (.announceExplicit entries compression rest outcome h₁.inHand hopen.1 hnew) rfl,
        fun _ => rfl⟩
    have hsilent := h₁.base.headersNew hnew
    rw [wp_modify_bind, wp_get_when]
    refine ⟨fun _ => ?_, fun _ => ?_⟩
    · rw [wp_tryCatch]
      refine wp_mono (announce_outcome entries _ hsilent fun outcome env =>
        ⟨(hannounced outcome).1.env env, (hannounced outcome).2⟩) (fun _ _ h₂ => h₂)
          fun _ w₂ h₂ => ?_
      exact wp_imp (closeConnection_stops rfl w₂ h₂.1.base.stops) fun _ _ h₃ => Settled.stop h₂ h₃
    · have hunsent := hannounced none
      rwa [World.announce, Option.map_none,
        show { w₁.log with headers := none } = w₁.log by rw [← hsilent]] at hunsent
  · by_contra hnew
    exact hclosed ⟨hactive, by simp [(h₁.base.running hactive).2], hnew⟩

theorem processSend_reaches (bytes : Bytes) (h : Reach c₀ { batch := .send bytes :: rest } w) :
    wp (processSend bytes) (fun _ => Reach c₀ { batch := .send bytes :: rest, taken := true })
      never w := by
  unfold processSend
  refine wp_seq (lock_reaches w h) fun _ w₁ h₁ => ?_
  rw [wp_get_bind, wp_ite]
  refine ⟨fun hclosed => ?_, fun hopen => ?_⟩
  · have hinactive : w₁.stream.streamingActive = false := by
      by_contra hactive
      have hactive : w₁.stream.streamingActive = true := by simpa using hactive
      obtain ⟨hstarted, hopen⟩ := h₁.base.running hactive
      rcases hclosed with hclosed | hnone
      · exact hclosed ⟨hactive, by simp [hopen]⟩
      · exact started_ne_none hstarted (by simpa using hnone)
    have hdropped := h₁.quiet (.dropSend bytes rest h₁.inHand rfl (.inr hinactive)) rfl
    exact wp_imp (releaseOutboundReservation_reaches
      { batch := .send bytes :: rest, taken := true } bytes.length false hdropped
      fun _ => .inr hinactive) fun _ _ h₂ => h₂.1
  obtain ⟨⟨hactive, _⟩, _⟩ := not_or.mp hopen |>.imp_left not_not.mp
  rw [wp_bind]
  refine drawFault_wp fun oom faults => ?_
  rw [wp_ite]
  refine ⟨fun _ => ?_, fun _ => ?_⟩
  · have hfailing := (h₁.env { w₁.env with faults := faults }).quiet .allocationFailed rfl
    have hdropped := hfailing.quiet (.dropSend bytes rest h₁.inHand rfl (.inl rfl)) rfl
    refine wp_seq (releaseOutboundReservation_reaches
      { batch := .send bytes :: rest, taken := true, failing := true } bytes.length false
      hdropped fun _ => .inl rfl) fun _ w₂ ⟨h₂, hunfailed, hstarted⟩ => ?_
    refine wp_imp (failStreaming_halts _ _ h₂ (hunfailed (h₁.base.unfailed hactive))
      (hstarted.trans (h₁.base.started hactive))) fun _ _ h₃ => ?_
    exact h₃.1.quiet (.failed h₃.2) rfl
  · exact (h₁.env _).quiet (.take bytes rest h₁.inHand hactive rfl rfl) rfl

theorem processFinish_reaches (status : Status) (trailing : Option (List Entry))
    (h₀ : Reach c₀ { batch := .finish status trailing :: rest } w)
    (hfirst : w.stream.streamingActive → w.stream.responseFinished = false) :
    wp (processFinish status trailing)
      (fun _ => Reach c₀ { batch := .finish status trailing :: rest })
      never w := by
  unfold processFinish
  refine wp_seq (lock_moves w .refl) fun _ w₁ h₁ => ?_
  have hnew : w₁.stream.streamingActive → w₁.stream.responseFinished = false := by
    rwa [h₁.same.active, h₁.same.finished]
  have h : Reach c₀ { batch := .finish status trailing :: rest } w₁ := h₀.app h₁
  rw [wp_get_when]
  refine ⟨fun hopen => ?_, fun _ => h⟩
  have hstarted := h.base.started hopen.1
  unfold modifyStream setOwnedStatus
  rw [wp_modify_bind, wp_when]
  refine ⟨fun _ => ?_, fun hnone => absurd hstarted hnone⟩
  rw [wp_modify_bind, wp_bind, wp_tryCatch]
  have hfailed : Ends (Reach c₀ { batch := .finish status trailing :: rest })
      (tryCatch (setStatus .internal "metadata allocation failed") fun _ => closeConnection) :=
    .tryCatch (setStatus_reaches _ _) fun _ => closeConnection_reaches
  refine wp_mono (Q := fun _ => Reach c₀ { batch := .finish status trailing :: rest })
    (E := fun _ => Reach c₀ { batch := .finish status trailing :: rest }) ?_ (fun _ _ h₂ => h₂)
    fun _ w₂ h₂ => hfailed w₂ h₂
  have hmoved := fun copied complete hcopied => h.quiet
    (.finish status trailing rest copied complete h.inHand hopen.1 (hnew hopen.1) hcopied) rfl
  cases trailing with
  | some entries =>
    exact copyTrailers_copied .finish .given entries fun copied complete _ hcopied =>
      (hmoved copied complete hcopied).env _
  | none =>
    unfold copyStreamingTrailers
    rw [wp_get_bind]
    split
    · rename_i hnone
      exact absurd hnone (started_ne_none hstarted)
    · rename_i streaming hstreaming
      have hentries : streaming.context.trailingMetadata = w₁.contextTrailing := by
        simp [World.contextTrailing, show w₁.stream.streaming = some streaming from hstreaming]
      rw [hentries]
      exact copyTrailers_copied .finish .context w₁.contextTrailing fun copied complete _ hcopied =>
        (hmoved copied complete hcopied).env _

/-- What is left of a resume once the messages are delivered: the credit of the stream. -/
theorem returnCredit_reaches
    (h : Reach c₀ { batch := .resumeReceive :: rest, resuming := true } w) :
    wp (do let s := (← get).stream
           when (¬s.receivePaused ∧ ¬s.transportClosed ∧ s.streamingActive ∧
               s.deferredStreamCredit ≠ 0) <|
             tryCatch
               (do consumeStream s.deferredStreamCredit
                   modifyStream fun s => { s with deferredStreamCredit := 0 })
               fun _ => closeConnection)
      (fun _ => Reach c₀ { batch := .resumeReceive :: rest }) never w := by
  rw [wp_get_when]
  refine ⟨fun ⟨hopen, _, hactive, _⟩ => ?_, fun hkept => ?_⟩
  · simp only [consumeStream, modifyStream, wp_tryCatch, wp_bind, wp_modify]
    refine external_wp (fun faults => ?_) fun faults => ?_
    · exact (h.env _).quiet (.returnCredit hactive (by simpa using hopen)) rfl
    · refine wp_imp (closeConnection_ends (h.env _)) fun _ w₁ h₁ => ?_
      exact h₁.1.quiet (.resumed (.inr (.inr (.inr h₁.2)))) rfl
  · refine h.quiet (.resumed ?_) rfl
    by_contra hother
    simp only [not_or, Bool.not_eq_true, Bool.not_eq_false] at hother
    obtain ⟨hopen, hactive, hcredit, _⟩ := hother
    exact hkept ⟨by simp [hopen], by simp [(h.base.running hactive).2], hactive, hcredit⟩

theorem processResumeReceive_reaches (h : Reach c₀ { batch := .resumeReceive :: rest } w) :
    wp processResumeReceive (fun _ => Reach c₀ { batch := .resumeReceive :: rest }) never w := by
  unfold processResumeReceive modifyStream
  refine wp_seq (lock_reaches w h) fun _ w₁ h₁ => ?_
  rw [wp_get_bind, wp_modify_bind]
  have hresumed := h₁.quiet (.resume rest h₁.inHand) rfl
  rw [wp_when]
  refine ⟨fun _ => ?_, fun hidle => ?_⟩
  · refine wp_seq (deliverStreamingMessages_reaches _ rfl rfl _ hresumed) fun _ w₂ h₂ => ?_
    exact wp_seq (lock_reaches w₂ h₂) fun _ _ h₃ => returnCredit_reaches h₃
  · refine hresumed.quiet (.resumed (.inr (.inl ?_))) rfl
    by_contra hactive
    have hactive : w₁.stream.streamingActive = true := by simpa using hactive
    exact hidle (by simp [hactive, (h₁.base.running hactive).2])

/-- A command is carried out; the response headers of an active call are settled once the
command that sends them was. -/
theorem processStreamCommand_reaches (command : CommandAction)
    (h : Reach c₀ { batch := command :: rest } w)
    (hfirst : w.stream.streamingActive → w.stream.responseFinished → command.isFinish = false) :
    wp (processStreamCommand command)
      (fun _ w' => Reach c₀ { batch := command :: rest, taken := command.isSend } w' ∧
        (command.isInitialMetadata → w'.stream.streamingActive →
          w'.stream.responseHeadersSubmitted)) never w := by
  cases command with
  | initialMetadata entries compression =>
    exact wp_imp (processInitialMetadata_settled entries compression h)
      fun _ _ h' => ⟨h'.1, fun _ => h'.2⟩
  | send bytes => exact wp_imp (processSend_reaches bytes h) fun _ _ h' => ⟨h', nofun⟩
  | finish status trailing =>
    refine wp_imp (processFinish_reaches status trailing h fun hactive => ?_)
      fun _ _ h' => ⟨h', nofun⟩
    by_contra hfinished
    exact Bool.noConfusion (hfirst hactive (by simpa using hfinished))
  | resumeReceive => exact wp_imp (processResumeReceive_reaches h) fun _ _ h' => ⟨h', nofun⟩

/-- A finish that was carried out on an active call is the last one of its batch. -/
def World.FinishLeft (w : World) (commands : List CommandAction) : Prop :=
  w.stream.streamingActive → w.stream.responseFinished → commands.countP (·.isFinish) = 0

theorem otherCommands_reaches (h : Reach c₀ hand w) {commands : List CommandAction}
    (hfirst : w.FinishLeft commands) :
    wp otherCommands (fun _ w' => Reach c₀ hand w' ∧ w'.FinishLeft commands) never w := by
  unfold otherCommands
  rw [wp_get_bind]
  split
  · exact ⟨h, hfirst⟩
  · rw [wp_modify_bind, wp_when]
    have hnext := h.env { w.env with interrupts := ‹List Bool› }
    refine ⟨fun _ => ?_, fun _ => ⟨hnext, hfirst⟩⟩
    refine wp_imp (closeConnection_stops h.calm _ hnext.base.stops) fun _ w₁ h₁ => ?_
    refine ⟨hnext.stop h₁, fun hactive hfinished => hfirst (h₁.moves.active hactive) ?_⟩
    exact h₁.moves.same.finished ▸ hfinished

/-- The command is done with; its stream has not been retired, so that it is not destroyed. -/
theorem releaseStreamCommand_reaches (command : CommandAction)
    (h : Reach c₀ { batch := command :: rest, taken := command.isSend } w)
    (hannounced : command.isInitialMetadata → w.stream.streamingActive →
      w.stream.responseHeadersSubmitted) :
    wp (releaseStreamCommand rest)
      (fun _ w' => Reach c₀ { batch := rest } w' ∧ w'.FinishLeft rest) never w := by
  unfold releaseStreamCommand
  refine wp_seq (lock_moves w .refl) fun _ w₁ h₁ => ?_
  have hreach := h.app h₁
  have hannounced₁ : command.isInitialMetadata → w₁.stream.streamingActive →
      w₁.stream.responseHeadersSubmitted := by
    rwa [h₁.same.active, h₁.same.headersSubmitted]
  have hdone := hreach.move (.commandDone command rest hreach.inHand id hannounced₁) rfl hreach.calm
  have hopen := hreach.base.opened_of_batch hreach.inHand
  rw [wp_modify_bind, wp_get_when]
  refine ⟨fun hdestroy => (by cases hopen.symm.trans hdestroy.1), fun _ => ⟨hdone, ?_⟩⟩
  intro hactive hfinished
  have hnone := hreach.base.finishing hactive hfinished
  rw [hreach.inHand, List.tail_cons, List.countP_append] at hnone
  exact Nat.eq_zero_of_add_eq_zero_right hnone

theorem processNext_reaches (command : CommandAction) (h : Reach c₀ { batch := command :: rest } w)
    (hfirst : w.FinishLeft (command :: rest)) :
    wp (processNext command rest)
      (fun _ w' => Reach c₀ { batch := rest } w' ∧ w'.FinishLeft rest) never w := by
  unfold processNext
  refine wp_seq (otherCommands_reaches h hfirst) fun _ w₁ ⟨h₁, hfirst₁⟩ => ?_
  -- the stream of a command was not destroyed
  have hlive := h₁.base.alive (h₁.base.opened_of_batch h₁.inHand)
  rw [wp_modify_bind, violation, if_pos hlive, List.append_nil]
  refine wp_seq (processStreamCommand_reaches command h₁ fun hactive hfinished => ?_)
    fun _ w₂ h₂ => releaseStreamCommand_reaches command h₂.1 h₂.2
  have hnone := List.countP_eq_zero.mp (hfirst₁ hactive hfinished) command List.mem_cons_self
  simpa using hnone

theorem processBatch_reaches (commands : List CommandAction) (h : Reach c₀ { batch := commands } w)
    (hfirst : w.FinishLeft commands) :
    wp (processBatch commands) (fun _ => Reach c₀ {}) never w := by
  induction commands generalizing w with
  | nil => exact h
  | cons command rest ih =>
    rw [processBatch]
    exact wp_seq (processNext_reaches command h hfirst) fun _ _ h₁ => ih h₁.1 h₁.2

theorem forceAbortStreaming_reaches : Ends (Reach c₀ hand) forceAbortStreaming := by
  refine .bind lock_reaches fun _ w h => ?_
  unfold modifyStream
  rw [wp_get_bind, wp_modify_bind, wp_when]
  have hseen := h.quiet .abortSeen rfl
  refine ⟨fun hactive => ?_, fun _ => hseen⟩
  have hopen := (h.base.running hactive.2.1).2
  have haborted := hseen.quiet (.forceAbort hactive.2.1) rfl
  have hremoved := haborted.stop (haborted.base.stops.move .deadline)
  have hroot : Stops ⟨{ hand with aborting := true }, _⟩ { hand with aborting := true } _ :=
    hremoved.base.stops
  unfold removeStreamDeadline modifyStream
  rw [wp_modify_bind, wp_modify_bind]
  refine wp_seq (dropResponse_stops hroot rfl hopen (.inr (.inl rfl))) fun _ w₁ h₁ => ?_
  have hdropped := hremoved.stop h₁
  -- the stream is reset, or its connection closed
  have hdone : ∀ w₂ : World, Reach c₀ { hand with aborting := true } w₂ → w₂.dead = true →
      Reach c₀ hand w₂ := fun _ h₂ hdead => h₂.quiet (.aborted hand.aborting hdead) rfl
  have hclose : ∀ w₂, Reach c₀ { hand with aborting := true } w₂ →
      wp closeConnection (fun _ => Reach c₀ hand) never w₂ := fun w₂ h₂ =>
    wp_imp (closeConnection_ends h₂) fun _ w₃ h₃ => hdone w₃ h₃.1 (World.dead_of_closing h₃.2)
  rw [wp_get_bind, wp_ite]
  refine ⟨fun _ => ?_, fun _ => hclose w₁ hdropped⟩
  unfold submitReset
  rw [wp_tryCatch, wp_bind]
  refine external_wp (fun _ => ?_) fun _ => hclose _ (hdropped.env _)
  exact hdone _ ((hdropped.env _).quiet (.reset .internalError) rfl) (World.dead_of_reset rfl)

theorem processForcedServerCallAborts_reaches :
    Ends (Reach c₀ hand) processForcedServerCallAborts :=
  .bind lock_reaches fun _ => .bind .get fun _ => .when fun _ => forceAbortStreaming_reaches

theorem takeStreamCommands_reaches (h : Reach c₀ {} w) (hannounced : c₀.world.Announced) :
    wp takeStreamCommands (fun commands w' =>
      w'.batch = commands ∧ Reach c₀ { batch := commands } w' ∧
      w'.FinishLeft commands) never w := by
  unfold takeStreamCommands
  refine wp_seq (processForcedServerCallAborts_reaches w h) fun _ w₁ h₁ => ?_
  refine wp_seq (lock_reaches w₁ h₁) fun _ w₂ h₂ => ?_
  rw [wp_get_bind, wp_modify_bind, wp_pure]
  refine ⟨rfl, h₂.move (.swap h₂.inHand (h₂.moves.announced hannounced) fun hclosed =>
    h₂.rested hclosed rfl) rfl rfl, fun hactive hfinished => ?_⟩
  have hnone := h₂.base.finishing hactive hfinished
  rwa [h₂.inHand] at hnone

theorem processStreamCommands_reaches (h : Reach c₀ {} w) (hannounced : c₀.world.Announced) :
    wp processStreamCommands (fun _ => Reach c₀ {}) never w := by
  unfold processStreamCommands
  exact wp_seq (takeStreamCommands_reaches h hannounced)
    fun commands _ h₁ => processBatch_reaches commands h₁.2.1 h₁.2.2

end Commands

/-! ## Response data -/

section Data

variable {c₀ : Config} {w : World}

theorem Reach.nativeFailed (h : Reach c₀ {} w) : Reach c₀ {} w.nativeFailed :=
  h.callbackFailed (.inl rfl)

theorem finishResponseData_reaches (h : Reach c₀ {} w) (hfinished : w.stream.responseFinished)
    (hlive : w.dead = false) (hdrained : w.outbound = []) :
    wp finishResponseData (fun _ => Reach c₀ {}) (fun _ w' => Reach c₀ {} w'.nativeFailed) w := by
  unfold finishResponseData submitTrailers modifyStream
  rw [wp_get_when]
  refine ⟨fun hopen => ?_, fun _ => h⟩
  have hopen : w.stream.trailerSubmitted = false := by simpa using hopen
  have hended := h.quiet (.endOfData hfinished hopen rfl hlive hdrained) rfl
  simp only [wp_bind, wp_modify, wp_tryCatch, wp_throw]
  refine external_wp (fun _ => ?_) fun _ => (hended.env _).nativeFailed
  refine external_wp (fun _ => ?_) fun _ => (hended.env _).nativeFailed
  exact (hended.env _).quiet (.trailers rfl (h.base.trailersNew hopen)) rfl

theorem World.outbound_eq_nil (hempty : w.stream.streaming.all (·.outbound.isEmpty) = true) :
    w.outbound = [] := by
  unfold World.outbound
  cases hstreaming : w.stream.streaming with
  | none => rfl
  | some streaming => simpa [hstreaming] using hempty

theorem completeFrame_reaches (item : OutboundMessage) (rest : List OutboundMessage)
    (h : Reach c₀ {} w) (hout : w.stream.streaming.map (·.outbound) = some (item :: rest)) :
    wp (when (item.offset = item.bytes.length) do
        modifyStreaming fun st => { st with outbound := st.outbound.tail }
        modify fun w : World => { w with
          log := { w.log with completed := w.log.completed ++ [item.bytes] } })
      (fun _ w' => Reach c₀ {} w' ∧ w'.dead = w.dead) never w := by
  unfold modifyStreaming modifyStream
  rw [wp_when]
  refine ⟨fun hwhole => ?_, fun _ => ⟨h, rfl⟩⟩
  rw [wp_modify_bind, wp_modify]
  exact ⟨h.quiet (.complete item rest hout hwhole) rfl, rfl⟩

/-- The same outbound queue, and nghttp2 reads from it as before. -/
def SameOutbound (w w' : World) : Prop :=
  w'.stream.streaming.map (·.outbound) = w.stream.streaming.map (·.outbound) ∧ w'.dead = w.dead

/-- Giving back what was handed over leaves the outbound queue alone: the call is told that there
is room, but it cannot reach the queue. -/
theorem releaseOutboundReservation_outbound (length : ℕ)
    (h : Reach c₀ { releasing := 0 + length } w) :
    wp (releaseOutboundReservation length true)
      (fun _ w' => Reach c₀ {} w' ∧ SameOutbound w w') never w := by
  have hkept : Ends (SameOutbound w) (releaseOutboundReservation length true) := by
    have happ : ∀ w₁ w₂ : World, SameOutbound w w₁ → AppMoves w₁ w₂ → SameOutbound w w₂ :=
      fun _ _ h₁ h₂ => ⟨(h₂.same.map_streaming _ fun _ => rfl).trans h₁.1, h₂.same.dead.trans h₁.2⟩
    refine .bind (ends_of_app (fun _ => lock_moves) happ) fun _ =>
      .bind (.modify fun _ h₁ => h₁) fun _ =>
      .bind .get fun _ => .when fun _ => .bind (.modify fun _ h₁ => h₁) fun _ => .when fun _ =>
      .bind (fun w₁ h₁ => ?_) fun _ => .pure _
    exact wp_imp (callback_moves .writable) fun _ w₂ h₂ => happ (w₁.noted _) w₂ h₁ h₂
  exact wp_mono
    (wp_and (releaseOutboundReservation_reaches {} length true h nofun) (hkept w ⟨rfl, rfl⟩))
    (fun _ _ h' => ⟨h'.1.1, h'.2⟩) fun _ _ hfalse => hfalse.1

theorem readStreamingResponseData_reaches (outputLength : ℕ) (h : Reach c₀ {} w)
    (hreadable : w.readable) :
    wp (readStreamingResponseData outputLength) (fun _ => Reach c₀ {})
      (fun _ w' => Reach c₀ {} w'.nativeFailed) w := by
  unfold readStreamingResponseData
  rw [wp_get_bind]
  split
  · exact h.nativeFailed
  · rename_i hstreaming
    split
    · rename_i item rest hout
      have hout' : w.stream.streaming.map (·.outbound) = some (item :: rest) := by
        rw [hstreaming, Option.map_some, hout]
      have hmoved := h.quiet (.handOver item rest (min item.remaining.length outputLength) hreadable
        hout' (min_le_left _ _)) rfl
      unfold modifyStreaming modifyStream
      rw [wp_modify_bind, wp_modify_bind]
      refine wp_ends_seq (releaseOutboundReservation_outbound _ hmoved)
        fun _ w₁ ⟨h₁, hout₁, hdead₁⟩ => ?_
      refine wp_ends_seq (completeFrame_reaches
        { item with offset := item.offset + min item.remaining.length outputLength } rest h₁
        (hout₁.trans (by simp [hstreaming]))) fun _ w₂ ⟨h₂, hdead₂⟩ => ?_
      have hlive : w₂.dead = false := hdead₂.trans (hdead₁.trans (World.live_of_readable hreadable))
      rw [wp_get_when]
      refine ⟨fun hend => finishResponseData_reaches h₂ hend.2 hlive ?_, fun _ => h₂⟩
      exact World.outbound_eq_nil hend.1
    · rename_i hout
      rw [wp_get_when]
      refine ⟨fun hend => ?_, fun _ => h⟩
      refine finishResponseData_reaches h hend (World.live_of_readable hreadable) ?_
      simp [World.outbound, hstreaming, hout]

theorem onFrameSent_reaches (h : Reach c₀ {} w) :
    wp onFrameSent (fun _ => Reach c₀ {}) (fun _ w' => Reach c₀ {} w'.nativeFailed) w := by
  have hkeeps : Keeps (Reach c₀ {}) onFrameSent :=
    .bind .get fun _ => .when fun _ => .tryCatch (submitReset_reaches _) fun _ => .throw fun _ => id
  exact wp_mono (hkeeps w h) (fun _ _ h' => h') fun _ _ h' => h'.nativeFailed

theorem nativeCallback_reaches {x : CallM Unit}
    (hx : wp x (fun _ => Reach c₀ {}) (fun _ w' => Reach c₀ {} w'.nativeFailed) w) :
    wp (nativeCallback x) (fun _ => Reach c₀ {}) never w := by
  unfold nativeCallback
  rw [wp_tryCatch]
  refine wp_mono hx (fun _ _ h => h) fun _ w₁ h => ?_
  rw [wp_modify_bind]
  exact closeConnection_reaches _ h

end Data

/-! ## Start, close and deadline -/

section Life

variable {c₀ : Config} {hand : Hand} {w : World}

/-- A stream that is being retired, once its commands are discarded. -/
structure Retiring (c₀ : Config) (w : World) : Prop where
  reach : Reach c₀ { retiring := true } w
  closed : w.stream.transportClosed
  empty : w.commands = []

theorem Retiring.app {w' : World} (h : Retiring c₀ w) (h' : AppMoves w w') : Retiring c₀ w' :=
  ⟨h.reach.app h', h'.same.transportClosed.trans h.closed,
    (h'.commands_of_inactive (h.reach.base.inactive h.closed)).1.trans h.empty⟩

theorem Retiring.unreferenced (h : Retiring c₀ w) : w.stream.commandRefs = 0 := by
  rw [h.reach.base.references, World.queue, h.reach.inHand, h.empty]
  rfl

theorem notifyServerCallTerminal_retiring (h : Retiring c₀ w) :
    wp notifyServerCallTerminal
      (fun _ w' => Retiring c₀ w' ∧ w'.stream.callControl = none) never w := by
  unfold notifyServerCallTerminal modifyStream note
  rw [wp_get_bind]
  split
  · rename_i hnone
    exact ⟨h, hnone⟩
  · rename_i control hcontrol
    have hstarted := h.reach.base.controlled (by simp [hcontrol])
    -- the call's control goes once the call was told
    have hgone : ∀ w₁, Retiring c₀ w₁ → (∀ c, w₁.stream.callControl = some c → c.terminal) →
        Retiring c₀ { w₁ with stream := { w₁.stream with callControl := none } } :=
          fun w₁ h₁ hdone =>
      ⟨h₁.reach.quiet (.controlGone hdone h₁.closed) rfl, h₁.closed, h₁.empty⟩
    rw [wp_bind, wp_when]
    refine ⟨fun hnew => ?_, fun hdone => ?_⟩
    · have htold :=
        h.reach.quiet (.terminal control hcontrol (by simpa using hnew) h.closed hstarted) rfl
      rw [wp_modify_bind, wp_modify_bind, wp_get_when]
      refine ⟨fun _ => ?_, fun hnone => absurd hstarted hnone⟩
      refine wp_seq (callback_moves .terminal) fun _ w₁ h₁ => ?_
      have hretiring : Retiring c₀ w₁ := Retiring.app ⟨htold, h.closed, h.empty⟩ h₁
      rw [wp_pure, wp_modify]
      refine ⟨hgone w₁ hretiring fun c hc => ?_, rfl⟩
      have hcontrol₁ : w₁.stream.callControl = some { control with terminal := true } :=
        h₁.same.control
      rw [← Option.some.inj (hcontrol₁.symm.trans hc)]
    · rw [wp_modify]
      refine ⟨hgone w h fun c hc => ?_, rfl⟩
      rw [← Option.some.inj (hcontrol.symm.trans hc)]
      simpa using hdone

theorem retireStream_reaches (h : Reach c₀ { retiring := true } w) (hgone : w.registered = false)
    (hopen : w.stream.transportClosed = false) :
    wp retireStream (fun retired w' => retired = true ∧ Reach c₀ {} w') never w := by
  unfold retireStream removeStreamDeadline modifyStream
  rw [wp_modify_bind]
  refine wp_seq (lock_moves _ .refl) fun _ w₁ h₁ => ?_
  have hreach := (h.stop (h.base.stops.move .deadline)).app h₁
  have hlive : w₁.destroyed = 0 := hreach.base.alive (h₁.same.transportClosed.trans hopen)
  have hclosed := hreach.quiet (.retire (h₁.same.registered.trans hgone) rfl hreach.inHand) rfl
  have hroot : Stops ⟨{ retiring := true }, _⟩ { retiring := true } _ := hclosed.base.stops
  rw [wp_modify_bind]
  refine wp_seq (discardStreamCommands_stops hroot rfl hlive) fun _ w₂ ⟨h₂, hsame, hempty⟩ => ?_
  have hretiring : Retiring c₀ w₂ := ⟨hclosed.stop h₂, hsame.transportClosed, hempty⟩
  refine wp_seq (lock_moves w₂ .refl) fun _ w₃ h₃ => ?_
  have hretiring₃ := hretiring.app h₃
  rw [wp_get_bind]
  refine wp_seq (notifyServerCallTerminal_retiring hretiring₃) fun _ w₄ ⟨h₄, hnone⟩ => ?_
  unfold destroyStream
  rw [wp_bind, wp_when]
  refine ⟨fun _ => ?_, fun hno => absurd (by simp [hretiring₃.unreferenced]) hno⟩
  rw [wp_modify, wp_pure]
  exact ⟨by simp [hretiring₃.unreferenced],
    h₄.reach.move (.destroy rfl rfl h₄.closed hnone h₄.unreferenced) h₄.reach.inHand rfl⟩

theorem onStreamClose_reaches (noError : Bool) : Ends (Reach c₀ {}) (onStreamClose noError) := by
  intro w h
  unfold onStreamClose
  rw [wp_get_when]
  refine ⟨fun hregistered => ?_, fun _ => h⟩
  have hopen := h.base.opened hregistered
  have hgone := h.quiet (.unregister hregistered) rfl
  rw [wp_modify_bind, wp_get_bind, wp_bind, wp_when]
  have hretire : ∀ w₁, Stops ⟨{ retiring := true }, { w with registered := false }⟩
      { retiring := true } w₁ →
      wp (do let _ ← retireStream) (fun _ => Reach c₀ {}) never w₁ := fun w₁ h₁ => by
    exact wp_seq (retireStream_reaches (hgone.stop h₁) h₁.moves.same.registered
      (h₁.moves.same.transportClosed.trans hopen)) fun _ _ h₂ => h₂.2
  refine ⟨fun _ => ?_, fun _ => hretire _ hgone.base.stops⟩
  exact wp_imp (cancelStreaming_stops _ hgone.base.stops rfl hopen
    (.inl (World.dead_of_unregistered rfl))) fun _ w₁ h₁ => hretire w₁ h₁

theorem finishConnectionClose_reaches (h : Reach c₀ {} w) (hclosing : w.closing = true) :
    wp finishConnectionClose (fun _ => Reach c₀ {}) never w := by
  unfold finishConnectionClose
  rw [wp_get_when]
  refine ⟨fun hregistered => ?_, fun _ => h⟩
  have hopen := h.base.opened hregistered
  refine wp_seq (cancelUnfinished_stops h.base.stops h.calm hopen (World.dead_of_closing hclosing))
    fun _ w₁ h₁ => ?_
  have hreach₁ := h.stop h₁
  have hdeleted := hreach₁.quiet .sessionGone rfl
  have hopen₁ := h₁.moves.same.transportClosed.trans hopen
  rw [wp_modify_bind]
  have hdead₁ : World.dead { w₁ with session := false } = true :=
    World.dead_of_closing (h₁.moves.closing hclosing)
  refine wp_seq (cancelUnfinished_stops hdeleted.base.stops hdeleted.calm hopen₁ hdead₁)
    fun _ w₂ h₂ => ?_
  have hreach₂ := hdeleted.stop h₂
  have hregistered₂ : w₂.registered :=
    h₂.moves.same.registered.trans (h₁.moves.same.registered.trans hregistered)
  have hgone := hreach₂.quiet (.unregister hregistered₂) rfl
  rw [wp_modify_bind]
  refine wp_seq (retireStream_reaches hgone rfl (h₂.moves.same.transportClosed.trans hopen₁))
    fun retired w₃ h₃ => ?_
  rw [wp_modify, violation, if_pos h₃.1, List.append_nil]
  exact h₃.2

/-- A deadline cancels before it fails, so the call is not active any more; but no failure came
before, since it was active until then. -/
theorem expireDeadlines_reaches (now : ℕ) (h : Reach c₀ {} w)
    (hmarked : w.cutsFrame (.expire now) = true → w.log.cut = true) :
    wp (expireDeadlines now) (fun _ => Reach c₀ {}) never w := by
  unfold expireDeadlines removeStreamDeadline modifyStream
  rw [wp_get_bind]
  split
  · exact h
  rename_i hentry
  rw [wp_when]
  refine ⟨fun hpast => ?_, fun _ => h⟩
  rw [wp_modify_bind, wp_when]
  have hremoved := h.stop (h.base.stops.move .deadline)
  refine ⟨fun hdue => ?_, fun _ => hremoved⟩
  have hactive := hdue.2.2.2.2
  have huncut : w.Uncut :=
    World.uncut_of_expires hmarked (by simp [World.expires, hentry, hpast, hdue])
  have hending := hremoved.quiet .unsettled rfl
  refine wp_seq (cancelStreaming_stops _ hending.base.stops hending.calm (h.base.running hactive).2
    (.inr ⟨rfl, huncut⟩)) fun _ w₁ h₁ => ?_
  exact wp_imp (failStreaming_ends _ _ (hending.stop h₁)
    (h₁.moves.unfailed (h.base.unfailed hactive))
    (h₁.moves.same.started.trans (h.base.started hactive)) false) fun _ _ h₂ => h₂.1

theorem submitFailure_reaches (code : Code) (text : String) :
    Ends (Reach c₀ hand) (submitFailure code text) :=
  .bind removeStreamDeadline_reaches fun _ => .tryCatch
    (.bind (setStatus_reaches code text) fun _ => .bind (external_reaches _) fun _ =>
      .bind (external_reaches _) fun _ => .modify fun _ h => h.quiet .refused rfl)
    fun _ => closeConnection_reaches

theorem isExplicit_iff {w : World} {handler : ServerHandler}
    (h : w.stream.streaming.map (·.handler) = some handler) :
    w.stream.isExplicit ↔ handler.initialMetadataMode = .explicit := by
  unfold Stream.isExplicit
  rw [show (fun st : StreamingState => st.handler.initialMetadataMode) =
    (·.initialMetadataMode) ∘ (·.handler) from rfl, ← Option.map_map, h]
  simp

/-- The start of an accepted call, up to its response headers unless it sends them itself. -/
theorem acceptRequest_reaches (handler : ServerHandler) (requestCompression : Compression)
    (hw : w.Acceptable) (hbase : w.Base) :
    wp (acceptRequest handler requestCompression)
      (fun _ w' => Reach ⟨{}, w.accept handler requestCompression⟩ {} w' ∧ w'.Announced)
      never w := by
  have haccepted : Reach ⟨{}, w.accept handler requestCompression⟩ {}
      (w.accept handler requestCompression) :=
    ⟨hw.base hbase handler requestCompression, .refl, hw.idle, rfl,
      fun hclosed => by cases hw.opened.symm.trans hclosed⟩
  unfold acceptRequest modifyStream
  rw [wp_get_bind, wp_modify_bind, wp_modify_bind]
  refine wp_seq (callback_moves .start) fun run w₁ h₁ => ?_
  have hlive : Live _ {} w₁ := Live.app ⟨haccepted, rfl⟩ h₁
  have hhandler : ∀ {w₂ : World}, AppMoves w₁ w₂ →
      (w₂.stream.isExplicit ↔ handler.initialMetadataMode = .explicit) := fun h₂ =>
    isExplicit_iff ((AppMoves.same (h₁.trans h₂)).map_streaming _ fun _ => rfl)
  rw [wp_ite]
  refine ⟨fun _ => ?_, fun _ => ?_⟩
  · refine wp_imp (hlive.failStreaming _ _) fun _ _ h₂ => ⟨h₂.1, fun hactive => ?_⟩
    cases h₂.2.symm.trans hactive
  rw [wp_when]
  refine ⟨fun hautomatic => ?_, fun hexplicit => ⟨hlive.1, fun _ hother => ?_⟩⟩
  · refine wp_seq (lock_moves w₁ .refl) fun _ w₂ h₂ => ?_
    have hmoves : AppMoves _ w₂ := h₁.trans h₂
    have hreach : Reach _ {} w₂ := haccepted.app hmoves
    have hsilent : w₂.stream.responseHeadersSubmitted = false :=
      hmoves.same.headersSubmitted.trans (hbase.unstarted hw.unstarted).2.1
    have hmode : ¬w₂.stream.isExplicit := by
      rw [hhandler h₂, hautomatic]
      decide
    have hsettled := fun outcome => hreach.quiet
      (.announceAutomatic outcome hreach.inHand hmoves.same.active hmode hsilent) rfl
    rw [wp_modify_bind, wp_get_bind, wp_tryCatch]
    refine wp_mono (announce_outcome
      (w := { w₂ with stream := { w₂.stream with responseHeadersQueued := true } }) _ _
      (hreach.base.headersNew hsilent) fun outcome env =>
      (⟨(hsettled outcome).env env, fun _ _ => rfl⟩ : Reach _ {} _ ∧ World.Announced _))
      (fun _ _ h₃ => h₃) fun _ w₃ h₃ => ?_
    exact wp_imp (closeConnection_reaches _ h₃.1.root)
      fun _ _ h₄ => ⟨h₃.1.trans h₄, h₄.moves.announced h₃.2⟩
  · refine absurd ((hhandler .refl).mpr ?_) hother
    cases hmode : handler.initialMetadataMode with
    | automaticAfterStart => exact absurd hmode hexplicit
    | explicit => rfl

def Starts (w w' : World) : Prop :=
  Moves ⟨{}, w⟩ ⟨{}, w'⟩ ∨ ∃ w₁ handler requestCompression, w₁.Acceptable ∧
    Moves ⟨{}, w⟩ ⟨{}, w₁⟩ ∧ Moves ⟨{}, w₁.accept handler requestCompression⟩ ⟨{}, w'⟩

structure World.Rests (w : World) : Prop where
  base : w.Base
  announced : w.Announced
  idle : w.batch = []
  empty : w.stream.transportClosed → w.commands = []

theorem World.Rests.reach (h : w.Rests) : Reach ⟨{}, w⟩ {} w :=
  ⟨h.base, .refl, h.idle, rfl, fun hclosed _ => h.empty hclosed⟩

theorem Reach.rests {w' : World} (h : Reach c₀ {} w') (hannounced : w'.Announced) : w'.Rests :=
  ⟨h.base, hannounced, h.inHand, fun hclosed => h.rested hclosed rfl⟩

theorem startStreaming_reaches (now : ℕ) (handler : ServerHandler) (h : w.Rests)
    (hnew : w.stream.responded = false) (hregistered : w.registered)
    (hunreceived : w.log.received = []) :
    wp (startStreaming now handler) (fun _ w' => w'.Rests ∧ Starts w w') never w := by
  have hstarted := h.reach.move (.respond hnew) h.idle rfl
  have hfail : ∀ (w' : World) (code : Code) (text : String), Reach ⟨{}, w⟩ {} w' →
      wp (submitFailure code text) (fun _ w' => w'.Rests ∧ Starts w w') never w' :=
    fun w' code text hw' => wp_imp (submitFailure_reaches code text w' hw')
      fun _ _ h' => ⟨h'.rests (h'.moves.announced h.announced), .inl h'.moves⟩
  unfold startStreaming modifyStream
  rw [wp_modify_bind, wp_get_bind]
  simp only [wp_ite]
  -- the six checks of the request's headers
  iterate 6 refine ⟨fun _ => by apply hfail; exact hstarted, fun _ => ?_⟩
  split
  · apply hfail
    exact hstarted
  rw [wp_bind]
  have hcloned : ∀ w₀ entries,
      wp (tryCatch (do cloneMetadata entries; pure true) fun _ => pure false)
        (fun _ => AppMoves w₀) never w₀ := fun w₀ entries => by
    rw [wp_tryCatch, wp_bind]
    exact wp_mono (cloneMetadata_undone entries w₀ .refl) (fun _ _ h => h.moves) fun _ _ h =>
      h.1.moves
  refine wp_imp (hcloned _ _) fun copied w₁ h₁ => ?_
  have hreach : Reach ⟨{}, w⟩ {} w₁ := hstarted.app h₁
  rw [wp_ite]
  refine ⟨fun _ => by apply hfail; exact hreach, fun _ => ?_⟩
  rw [wp_bind]
  refine drawFault_wp fun oom faults => ?_
  rw [wp_ite]
  refine ⟨fun _ => by apply hfail; exact hreach.env _, fun _ => ?_⟩
  have hunstarted : w₁.stream.streaming = none := by
    have hnone := h₁.same.started
    simpa [h.base.unresponded hnew] using hnone
  have hready : World.Acceptable { w₁ with env := { w₁.env with faults := faults } } :=
    ⟨h₁.same.responded, hunstarted, h₁.same.transportClosed.trans (h.base.opened hregistered),
      hreach.inHand, h₁.same.registered.trans hregistered, h₁.same.received.trans hunreceived⟩
  exact wp_imp (acceptRequest_reaches handler _ hready (hreach.env _).base)
    fun _ _ h₂ => ⟨h₂.1.rests h₂.2, .inr ⟨_, handler, _, hready, (hreach.env _).moves, h₂.1.moves⟩⟩

theorem handleEvent_reaches (event : Event) (h : w.Rests)
    (hmarked : w.cutsFrame event = true → w.log.cut = true) :
    wp (handleEvent w event) (fun _ w' => w'.Rests ∧ Starts w w') never w := by
  have hreach := h.reach
  have hkept : w.Rests ∧ Starts w w := ⟨h, .inl .refl⟩
  have hends : ∀ {x : CallM Unit}, wp x (fun _ => Reach ⟨{}, w⟩ {}) never w →
      wp x (fun _ w' => w'.Rests ∧ Starts w w') never w :=
    fun hx => wp_imp hx fun _ _ h' => ⟨h'.rests (h'.moves.announced h.announced), .inl h'.moves⟩
  have hwhen : ∀ {p : Prop} [Decidable p] {x : CallM Unit},
      (p → wp x (fun _ => Reach ⟨{}, w⟩ {}) never w) →
      wp (when p x) (fun _ w' => w'.Rests ∧ Starts w w') never w :=
    fun hx => hends (wp_when _ |>.mpr ⟨hx, fun _ => hreach⟩)
  cases event with
  | app action =>
    exact hends (ends_of_app (fun _ => perform_moves action) (fun _ _ h₁ h₂ => h₁.app h₂) w hreach)
  | shutdown => exact hends (hreach.move .shutdown h.idle rfl)
  | start now handler =>
    rw [handleEvent, wp_when]
    exact ⟨fun hstart => startStreaming_reaches now handler h (by simpa using hstart.2.1) hstart.1
      hstart.2.2, fun _ => hkept⟩
  | data bytes =>
    exact hwhen fun hopen => nativeCallback_reaches
      (onDataChunk_reaches bytes hreach (Bool.eq_false_of_not_eq_true hopen.2))
  | remoteEnd => exact hwhen fun _ => receiveStreamingEnd_reaches w hreach
  | commands => exact hends (processStreamCommands_reaches hreach h.announced)
  | read outputLength =>
    exact hwhen fun hreadable => nativeCallback_reaches
      (readStreamingResponseData_reaches outputLength hreach hreadable)
  | trailersSent => exact hwhen fun _ => nativeCallback_reaches (onFrameSent_reaches hreach)
  | expire now => exact hends (expireDeadlines_reaches now hreach hmarked)
  | streamClose noError => exact hends (onStreamClose_reaches noError w hreach)
  | connectionClose => exact hends (closeConnection_reaches w hreach)
  | connectionClosed => exact hwhen fun hclosing => finishConnectionClose_reaches hreach hclosing

theorem World.Rests.marked (h : w.Rests) (cuts : Bool) : (w.marked cuts).Rests :=
  { h with base := { h.base with } }

theorem step_reaches (event : Event) (h : w.Rests) :
    (step w event).Rests ∧ Starts (w.marked (w.cutsFrame event)) (step w event) := by
  have hsame : handleEvent w event = handleEvent (w.marked (w.cutsFrame event)) event := by
    cases event <;> rfl
  unfold step
  rw [hsame]
  refine exec_of_wp (wp_ends (handleEvent_reaches event (h.marked _) fun hcuts => ?_) fun _ _ h =>
    h)
  have hcuts : w.cutsFrame event = true := by cases event <;> exact hcuts
  simp [World.marked, hcuts]

/-- Only the start of an event marks that a frame is cut. -/
theorem Move.cut {c : Config} (hmove : Move hand w c) : c.world.log.cut = w.log.cut := by
  cases hmove with
  | stop hmove =>
    cases hmove with
    | app hmove => exact (hmove.same (.refl _)).cut
    | _ => rfl
  | _ => rfl

theorem Moves.cut {c c' : Config} (h : Moves c c') : c'.world.log.cut = c.world.log.cut := by
  induction h with
  | refl => rfl
  | tail _ hmove ih => exact hmove.cut.trans ih

theorem Starts.cut {w' : World} (h : Starts w w') : w'.log.cut = w.log.cut := by
  rcases h with hmoves | ⟨w₁, handler, requestCompression, _, hmoves, hmoves'⟩
  · exact Moves.cut hmoves
  · exact (Moves.cut hmoves').trans (Moves.cut hmoves)

end Life

/-! ## Runs -/

/-- A stream as the header callbacks leave it: nothing of the call exists yet. -/
def World.asRequest (w : World) : World where
  stream :=
    { allocator := w.stream.allocator
      path := w.stream.path
      methodPost := w.stream.methodPost
      contentTypeGrpc := w.stream.contentTypeGrpc
      requestCompression := w.stream.requestCompression
      acceptsResponseGzip := w.stream.acceptsResponseGzip
      timeoutSeen := w.stream.timeoutSeen
      timeoutInvalid := w.stream.timeoutInvalid
      deadline := w.stream.deadline
      deadlineEntry := w.stream.deadlineEntry
      requestMetadataInvalid := w.stream.requestMetadataInvalid
      headerTooLarge := w.stream.headerTooLarge
      headerBytes := w.stream.headerBytes
      requestMetadata := w.stream.requestMetadata }
  limits := w.limits
  maxRequestSize := w.maxRequestSize
  gzip := w.gzip
  gauge := w.gauge
  env := w.env

def World.IsRequest (w : World) : Prop := w = w.asRequest

def plainRequest : World where
  stream := { methodPost := true, contentTypeGrpc := true }
  gzip := { compress := id, decompress := fun payload _ => .ok payload }

theorem plainRequest_isRequest : plainRequest.IsRequest := rfl

theorem World.IsRequest.rests {w : World} (h : w.IsRequest) : w.Rests := by
  rw [h]
  refine ⟨?_, nofun, rfl, nofun⟩
  exact
    { running := nofun
      ended := nofun
      unfailed := nofun
      headersNew := fun _ => rfl
      trailersNew := fun _ => rfl
      unresponded := fun _ => rfl
      unstarted := fun _ => ⟨rfl, rfl, rfl⟩
      empty := fun _ => rfl
      controlled := nofun
      unregistered := nofun
      idle := nofun
      alive := fun _ => rfl
      references := rfl
      unqueued := fun _ => ⟨rfl, rfl⟩
      single := Nat.zero_le _
      finishing := nofun }

/-- A property that every move keeps, and the start of a call. -/
structure Invariant (I : Hand → World → Prop) : Prop where
  move : ∀ {hand : Hand} {w : World} {c : Config}, Move hand w c → w.Base → I hand w →
    I c.hand c.world
  accept : ∀ {w : World} (handler : ServerHandler) (requestCompression : Compression),
    w.Acceptable → w.Base → I {} w → I {} (w.accept handler requestCompression)
  marked : ∀ {w : World} (cuts : Bool), I {} w → I {} (w.marked cuts)

namespace Invariant

variable {I : Hand → World → Prop}

theorem moves (hI : Invariant I) {c c' : Config} (h : Moves c c') (hbase : c.world.Base)
    (hc : I c.hand c.world) : c'.world.Base ∧ I c'.hand c'.world := by
  induction h with
  | refl => exact ⟨hbase, hc⟩
  | tail _ hmove ih => exact ⟨hmove.base ih.1, hI.move hmove ih.1 ih.2⟩

variable {w : World}

variable (hI : Invariant I)

include hI

theorem starts {w' : World} (h : Starts w w') (hbase : w.Base) (hw : I {} w) :
    I {} w' := by
  rcases h with hmoves | ⟨w₁, handler, requestCompression, hready, hmoves, hmoves'⟩
  · exact (hI.moves hmoves hbase hw).2
  · obtain ⟨hbase₁, hw₁⟩ := hI.moves hmoves hbase hw
    exact (hI.moves hmoves' (hready.base hbase₁ handler requestCompression)
      (hI.accept handler requestCompression hready hbase₁ hw₁)).2

theorem step (event : Event) (hrests : w.Rests) (h : I {} w) :
    (Server.step w event).Rests ∧ I {} (Server.step w event) := by
  obtain ⟨hrests', hstarts⟩ := step_reaches event hrests
  exact ⟨hrests', hI.starts hstarts (hrests.marked _).base (hI.marked _ h)⟩

theorem run (hw : w.IsRequest) (events : List Event) (h : I {} w) :
    I {} (Run.final Server.step w events) := by
  have hstart : w.Rests ∧ I {} w := ⟨hw.rests, h⟩
  exact (Run.invariant_always (I := fun w => w.Rests ∧ I {} w)
    (fun w event h => hI.step event h.1 h.2) events hstart).2

theorem batchStates {c₀ : Config} (hbase : c₀.world.Base)
    (hc : I c₀.hand c₀.world) {commands : List CommandAction} (h : Reach c₀ { batch := commands } w)
    (hfirst : w.FinishLeft commands) :
    ∀ s ∈ Server.batchStates commands w, s.Base ∧ I { batch := s.batch } s := by
  have hbatch : w.batch = commands := h.inHand
  have hhere : w.Base ∧ I { batch := w.batch } w := by
    rw [hbatch]
    exact hI.moves h.moves hbase hc
  induction commands generalizing w with
  | nil =>
    intro s hs
    rw [List.mem_singleton.mp hs]
    exact hhere
  | cons command rest ih =>
    intro s hs
    rcases List.mem_cons.mp hs with rfl | hs
    · exact hhere
    · have hnext : Reach c₀ { batch := rest } (exec (processNext command rest) w) ∧
          World.FinishLeft (exec (processNext command rest) w) rest :=
        exec_of_wp (wp_ends (processNext_reaches command h hfirst) fun _ _ h' => h')
      refine ih hnext.1 hnext.2 hnext.1.inHand ?_ s hs
      have hkept := hI.moves hnext.1.moves hbase hc
      rw [hnext.1.inHand]
      exact hkept

theorem between (event : Event) (hrests : w.Rests) (h : I {} w) :
    ∀ s ∈ w.between event, s.Base ∧ I { batch := s.batch } s := by
  intro s hs
  cases event with
  | commands =>
    have htaken : Reach ⟨{}, w⟩ { batch := (exec takeStreamCommands w).batch }
        (exec takeStreamCommands w) ∧
        World.FinishLeft (exec takeStreamCommands w) (exec takeStreamCommands w).batch :=
      exec_of_wp (I := fun w' => Reach ⟨{}, w⟩ { batch := w'.batch } w' ∧ w'.FinishLeft w'.batch)
        (wp_ends (takeStreamCommands_reaches hrests.reach hrests.announced)
          fun commands w' ⟨hbatch, hreach, hfirst⟩ => by
            subst hbatch
            exact ⟨hreach, hfirst⟩)
    exact hI.batchStates hrests.base h htaken.1 htaken.2 s hs
  | _ => exact absurd hs List.not_mem_nil

theorem states (hw : w.IsRequest) (events : List Event) (h : I {} w) :
    ∀ s ∈ w.states events, s.Base ∧ I { batch := s.batch } s := by
  have hrests := hw.rests
  clear hw
  induction events generalizing w with
  | nil =>
    intro s hs
    rw [List.mem_singleton.mp hs, hrests.idle]
    exact ⟨hrests.base, h⟩
  | cons event rest ih =>
    intro s hs
    rcases List.mem_append.mp hs with hs | hs
    · rcases List.mem_cons.mp hs with rfl | hs
      · rw [hrests.idle]
        exact ⟨hrests.base, h⟩
      · exact hI.between event hrests h s hs
    · obtain ⟨hrests', h'⟩ := hI.step event hrests h
      exact ih h' hrests' s hs

end Invariant

end GrpcLite.Server
