import GrpcLite.Server.Moves

/-!
# The moves of the application

Every operation of the application on a streaming call, and with it every critical section of
another thread and every handler callback, is a sequence of its moves.  One that fails has reserved
nothing.
-/

namespace GrpcLite.Server

open Prog

section Application

variable {w₀ w : World}

/-- The operation that began in `w₀` has reserved nothing so far. -/
structure Undone (w₀ w : World) : Prop where
  moves : AppMoves w₀ w
  same : w.stream.outboundReservedBytes = w₀.stream.outboundReservedBytes ∧ w.gauge = w₀.gauge

theorem Undone.refl : Undone w w := ⟨.refl, rfl, rfl⟩

theorem Undone.tail {w' : World} (h : Undone w₀ w) (hmove : AppMove w w')
    (hsame : w'.stream.outboundReservedBytes = w.stream.outboundReservedBytes ∧
      w'.gauge = w.gauge) : Undone w₀ w' :=
  ⟨h.moves.tail hmove, hsame.1.trans h.same.1, hsame.2.trans h.same.2⟩

theorem Undone.env (h : Undone w₀ w) (env : Env) : Undone w₀ { w with env := env } :=
  h.tail (.env env) ⟨rfl, rfl⟩

/-- An operation that would block leaves a request for `on_writable` behind, and something is
reserved then. -/
def Failed (w₀ : World) (error : CallError) (w : World) : Prop :=
  Undone w₀ w ∧ (error = .wouldBlock → w.stream.Blocked)

theorem Undone.fails {error : CallError} (h : Undone w₀ w) (herror : error ≠ .wouldBlock) :
    Failed w₀ error w :=
  ⟨h, fun heq => absurd heq herror⟩

/-! ## Operations that queue a command -/

theorem external_undone {error : CallError} (herror : error ≠ .wouldBlock) :
    Exits (Undone w₀) (Failed w₀) (external error) :=
  fun _ h => external_wp (fun _ => h.env _) fun _ => (h.env _).fails herror

theorem ensure_undone {p : Prop} [Decidable p] {error : CallError} (herror : error ≠ .wouldBlock) :
    Exits (Undone w₀) (Failed w₀) (ensure p error) :=
  .ensure fun _ h => h.fails herror

theorem cloneMetadata_undone (entries : List Entry) :
    Exits (Undone w₀) (Failed w₀) (cloneMetadata entries) := by
  induction entries with
  | nil => exact .pure _
  | cons entry rest ih =>
    exact .bind (ensure_undone (by decide)) fun _ => .bind (ensure_undone (by decide)) fun _ =>
      .bind (external_undone (by decide)) fun _ => ih

theorem serverCallSendInitialMetadata_undone (entries : List Entry) (compression : Compression) :
    Exits (Undone w₀) (Failed w₀) (serverCallSendInitialMetadata entries compression) := by
  unfold serverCallSendInitialMetadata modifyStream
  refine .bind (cloneMetadata_undone entries) fun _ w h => ?_
  simp only [wp_bind, wp_get, wp_ensure, wp_modify, wp_tryCatch]
  refine ⟨fun hopen => ⟨fun hexplicit => ⟨fun hnew => ?_, fun _ => h.fails (by decide)⟩,
    fun _ => h.fails (by decide)⟩, fun _ => h.fails (by decide)⟩
  have hnew : w.stream.responseHeadersQueued = false := by simpa using hnew
  refine enqueueStreamCommandLocked_wp (fun faults => ?_) fun error faults herror => ?_
  · exact (h.tail (.initialMetadata entries compression hopen.1 hexplicit hnew) ⟨rfl, rfl⟩).env _
  · have hsame : { w.stream with
        responseHeadersQueued := false, responseCompression := .identity } =
        { w.stream with responseCompression := .identity } := by rw [← hnew]
    show Failed w₀ error { w with
      env := { w.env with faults := faults }
      stream := { w.stream with
        responseHeadersQueued := false, responseCompression := .identity } }
    rw [hsame]
    exact ((h.tail (.initialMetadataFailed hopen.1 hexplicit hnew) ⟨rfl, rfl⟩).env _).fails herror

theorem enqueueFinish_undone (status : Status) (trailing : Option (List Entry)) (h : Undone w₀ w)
    (hactive : w.stream.streamingActive) (hunfinished : w.stream.finishQueued = false)
    (hqueued : w.stream.isExplicit → w.stream.responseHeadersQueued) :
    wp (enqueueFinish status trailing) (fun _ => Undone w₀) (Failed w₀) w := by
  unfold enqueueFinish modifyStream
  rw [wp_modify_bind, wp_bind, wp_tryCatch]
  refine enqueueStreamCommandLocked_wp (fun faults => ?_) fun error faults herror => ?_
  · exact (h.tail (.finish status trailing hactive hunfinished hqueued) ⟨rfl, rfl⟩).env _
  · have hsame : { w.stream with finishQueued := false } = w.stream := by rw [← hunfinished]
    show Failed w₀ error { w with
      env := { w.env with faults := faults }
      stream := { w.stream with finishQueued := false } }
    rw [hsame]
    exact (h.env _).fails herror

theorem serverCallFinish_undone (status : Status) (trailing : List Entry) :
    Exits (Undone w₀) (Failed w₀) (serverCallFinish status trailing) := by
  unfold serverCallFinish
  refine .bind (.when fun _ => external_undone (by decide)) fun _ =>
    .bind (cloneMetadata_undone _) fun _ w h => ?_
  simp only [wp_bind, wp_get, wp_ensure]
  exact ⟨fun hopen => ⟨fun hqueued => enqueueFinish_undone status _ h hopen.1
    (by simpa using hopen.2.1) fun _ => hqueued, fun _ => h.fails (by decide)⟩,
    fun _ => h.fails (by decide)⟩

theorem streamFinish_undone (status : Status) :
    Exits (Undone w₀) (Failed w₀) (streamFinish status) := by
  unfold streamFinish
  refine .bind (.when fun _ => external_undone (by decide)) fun _ w h => ?_
  simp only [wp_bind, wp_get, wp_ensure]
  refine ⟨fun hopen => ⟨fun hqueued => enqueueFinish_undone status _ h hopen.1
    (by simpa using hopen.2) fun hexplicit => ?_, fun _ => h.fails (by decide)⟩,
    fun _ => h.fails (by decide)⟩
  by_contra hother
  exact hqueued ⟨hexplicit, hother⟩

theorem queueResume_undone (h : Undone w₀ w) (hactive : w.stream.streamingActive) :
    wp queueResume (fun _ => Undone w₀) (Failed w₀) w := by
  unfold queueResume modifyStream
  simp only [wp_bind, wp_get, wp_ite, wp_pure, wp_ensure, wp_modify, wp_tryCatch]
  refine ⟨fun _ => h, fun hnew => ⟨fun hopen => ⟨fun hcallback => h.tail (.resumeRequested hactive
    hcallback (by simpa using hopen)) ⟨rfl, rfl⟩, fun _ => h.fails (by decide)⟩, fun hpaused => ?_⟩⟩
  obtain ⟨hidle, hunrequested⟩ :
      w.stream.resumeQueued = false ∧ w.stream.resumeRequested = false := by simpa using hnew
  refine enqueueStreamCommandLocked_wp (fun faults => ?_) fun error faults herror => ?_
  · exact (h.tail (.resumeQueued hactive (by simpa using hpaused) hidle hunrequested)
      ⟨rfl, rfl⟩).env _
  · have hsame : { w.stream with resumeQueued := false } = w.stream := by rw [← hidle]
    show Failed w₀ error { w with
      env := { w.env with faults := faults }
      stream := { w.stream with resumeQueued := false } }
    rw [hsame]
    exact (h.env _).fails herror

theorem resumeReceive_undone (handle : Handle) :
    Exits (Undone w₀) (Failed w₀) (resumeReceive handle) := by
  intro w h
  unfold resumeReceive
  rw [wp_get_bind]
  cases handle with
  | retained =>
    rw [wp_bind, wp_ensure]
    exact ⟨fun hopen => queueResume_undone h hopen.1, fun _ => h.fails (by decide)⟩
  | borrowed =>
    rw [wp_bind, wp_ensure]
    exact ⟨fun hopen => queueResume_undone h hopen, fun _ => h.fails (by decide)⟩

theorem serverCallAbort_undone : Exits (Undone w₀) (Failed w₀) serverCallAbort := by
  intro w h
  unfold serverCallAbort modifyStream
  rw [wp_get_when]
  exact ⟨fun hopen => h.tail (.abort hopen.1) ⟨rfl, rfl⟩, fun _ => h⟩

theorem modifyContext_undone {f : ServerContext → ServerContext}
    (htrailing : ∀ context, (f context).trailingMetadata = context.trailingMetadata) :
    Exits (Undone w₀) (Failed w₀) (modifyContext f) :=
  .modify fun _ h => h.tail (.context f htrailing) ⟨rfl, rfl⟩

theorem addTrailingMetadata_undone (entry : Entry) :
    Exits (Undone w₀) (Failed w₀) (addTrailingMetadata entry) := by
  intro w h
  unfold addTrailingMetadata modifyContext modifyStream
  rw [wp_modify_bind, wp_get_when]
  refine ⟨fun hstarted => h.tail (.contextTrailing entry (by simpa using hstarted)) ⟨rfl, rfl⟩,
    fun hnone => ?_⟩
  -- a call that was not started has no context
  have hunstarted : w.stream.streaming = none := by simpa using hnone
  have hkept : Undone w₀ _ := h.tail (.context id fun _ => rfl) ⟨rfl, rfl⟩
  simpa only [hunstarted, Option.map_none] using hkept

/-! ## Sends -/

variable {Q : Unit → World → Prop} {E : CallError → World → Prop}

theorem checkSendLocked_allowed {handle : Handle} {target : Stream} {compression : Compression}
    (hok : target.SendAllowed compression →
      (handle = .retained → compression = .gzip → target.acceptsResponseGzip) → Q () w)
    (hfail : ∀ error, error ≠ .wouldBlock → E error w) :
    wp (checkSendLocked handle target compression) Q E w := by
  cases handle with
  | retained =>
    simp only [checkSendLocked, checkRetainedSendLocked, wp_bind, wp_ensure]
    refine ⟨fun hopen => ⟨fun hqueued => ⟨fun haccepts => ⟨fun hencoding =>
      hok ?_ fun _ => haccepts, fun _ => hfail _ (by decide)⟩, fun _ => hfail _ (by decide)⟩,
      fun _ => hfail _ (by decide)⟩, fun _ => hfail _ (by decide)⟩
    refine ⟨hopen.1, by simpa using hopen.2.1, fun _ => hqueued, fun hexplicit hgzip => ?_⟩
    by_contra hother
    exact hencoding ⟨hexplicit, hgzip, hother⟩
  | borrowed =>
    simp only [checkSendLocked, checkBorrowedSendLocked, wp_bind, wp_ensure]
    refine ⟨fun hopen => ⟨fun hqueued => ⟨fun hencoding => hok ?_ fun hretained =>
      absurd hretained (by decide), fun _ => hfail _ (by decide)⟩,
      fun _ => hfail _ (by decide)⟩, fun _ => hfail _ (by decide)⟩
    refine ⟨hopen.1, by simpa using hopen.2, fun hexplicit => ?_, fun hexplicit hgzip => ?_⟩
    · by_contra hother
      exact hqueued ⟨hexplicit, hother⟩
    · by_contra hother
      exact hencoding ⟨hexplicit, hgzip, hother⟩

theorem checkOutboundCapacityLocked_fits {size : ℕ} (h : Undone w₀ w)
    (hok : w.stream.outboundReservedBytes + size ≤ w.limits.maxOutboundBufferSize → Q () w) :
    wp (checkOutboundCapacityLocked size) Q (Failed w₀) w := by
  simp only [checkOutboundCapacityLocked, modifyStream, wp_bind, wp_get, wp_ensure, wp_when,
    wp_modify, wp_throw]
  refine ⟨fun hsmall => ⟨fun hfull => ?_, fun hroom => hok (by omega)⟩,
    fun _ => h.fails (by decide)⟩
  have hreserved : 0 < w.stream.outboundReservedBytes := by omega
  exact ⟨h.tail (.blocked hreserved) ⟨rfl, rfl⟩, fun _ => ⟨rfl, hreserved⟩⟩

theorem sendBegin_undone (handle : Handle) (payload : Bytes) (compression : Compression) :
    wp (sendBegin handle payload compression) (fun _ => Undone w) (Failed w) w := by
  unfold sendBegin
  have hw : Undone w w := .refl
  rw [wp_get_bind, wp_bind, wp_ensure]
  refine ⟨fun _ => ?_, fun _ => hw.fails (by decide)⟩
  rw [wp_bind, wp_when]
  suffices hencode : (handle = .borrowed → compression = .gzip → w.stream.acceptsResponseGzip) →
      wp _ (fun _ => Undone w) (Failed w) w by
    refine ⟨fun _ => ?_, fun hother => hencode fun hborrowed => absurd hborrowed hother⟩
    rw [wp_ensure]
    exact ⟨fun haccepts => hencode fun _ => haccepts, fun _ => hw.fails (by decide)⟩
  intro hborrowed
  rw [wp_bind]
  refine checkSendLocked_allowed (fun _ hretained => ?_) fun _ => hw.fails
  have haccepts : compression = .gzip → w.stream.acceptsResponseGzip := by
    cases handle with
    | retained => exact hretained rfl
    | borrowed => exact hborrowed rfl
  suffices hkeeps : Exits (Undone w) (Failed w) _ from hkeeps w hw
  refine .bind (.when fun _ => ?_) fun _ => .bind (external_undone (by decide)) fun _ => ?_
  · split
    · exact .throw fun _ h => h.fails (by decide)
    · exact fun _ h => checkOutboundCapacityLocked_fits h fun _ => h
  · split
    · exact .throw fun _ h => h.fails (by decide)
    · rename_i encoded hencoded
      refine .modify fun w' h =>
        h.tail (.sendBegin handle payload encoded compression ?_ ?_) ⟨rfl, rfl⟩
      · rw [h.moves.same.gzip, hencoded]
      · rwa [h.moves.same.accepts]

theorem enqueueSend_rollback {encoded : Bytes} (hok : ∀ faults, Q () { w.reserve encoded.length with
      commands := w.commands ++ [.send encoded]
      stream := { (w.reserve encoded.length).stream with commandRefs := w.stream.commandRefs + 1 }
      env := { w.env with faults := faults }
      log := { w.log with accepted := w.log.accepted ++ [encoded] } })
    (hfail : ∀ error faults, error ≠ .wouldBlock →
      E error { w with env := { w.env with faults := faults } }) :
    wp (enqueueSend encoded) Q E w := by
  unfold enqueueSend
  rw [wp_modify_bind, wp_bind, wp_tryCatch]
  refine enqueueStreamCommandLocked_wp (fun faults => hok faults) fun error faults herror => ?_
  rw [wp_modify_bind, wp_throw]
  have hback := hfail error faults herror
  rwa [← World.unreserve_reserve { w with env := { w.env with faults := faults } } encoded.length]
    at hback

theorem commitSend_moves {index : ℕ} {send : SendInProgress}
    (hsend : w.sending[index]? = some send) (hallowed : w.stream.SendAllowed send.compression)
    (hfits : w.stream.outboundReservedBytes + send.encoded.length ≤ w.limits.maxOutboundBufferSize)
    (h : Undone w₀ w) :
    wp (match send.handle with
        | .retained => do
          enqueueSend send.encoded
          when (send.compression = .gzip)
            (modifyStream fun s => { s with responseGzipRequested := true })
          recordSend send
        | .borrowed => do
          when (send.compression = .gzip)
            (modifyStream fun s => { s with responseGzipRequested := true })
          enqueueSend send.encoded
          recordSend send)
      (fun _ => AppMoves w₀) (Failed w₀)
      { w with sending := w.sending.eraseIdx index } := by
  have hdropped : ∀ faults requested, Undone w₀ { w with
      sending := w.sending.eraseIdx index
      env := { w.env with faults := faults }
      stream := { w.stream with
        responseGzipRequested := w.stream.responseGzipRequested || requested } } := by
    intro faults requested
    have hmoved := (h.tail (.sendDropped index) ⟨rfl, rfl⟩).env { w.env with faults := faults }
    cases requested with
    | false =>
      rw [Bool.or_false]
      exact hmoved
    | true =>
      rw [Bool.or_true]
      exact hmoved.tail .gzipNoted ⟨rfl, rfl⟩
  have hqueued : ∀ faults requested, requested = decide (send.compression = .gzip) →
      AppMoves w₀ { w with
        sending := w.sending.eraseIdx index
        commands := w.commands ++ [.send send.encoded]
        env := { w.env with faults := faults }
        gauge := w.gauge + send.encoded.length
        stream := { w.stream with
          outboundReservedBytes := w.stream.outboundReservedBytes + send.encoded.length
          commandRefs := w.stream.commandRefs + 1
          responseGzipRequested := w.stream.responseGzipRequested || requested }
        log := { w.log with
          accepted := w.log.accepted ++ [send.encoded]
          sends := w.log.sends ++
            [⟨send.encoded, send.compression, w.log.headers.map Prod.fst⟩] } } := by
    rintro faults _ rfl
    exact (h.moves.tail (.send index send hsend hallowed hfits)).tail (.env _)
  cases send.handle with
  | retained =>
    simp only [recordSend, modifyStream, wp_bind]
    refine enqueueSend_rollback (fun faults => ?_) fun error faults herror => ?_
    · rw [wp_when]
      refine ⟨fun hgzip => ?_, fun hidentity => ?_⟩
      · have hmoved := hqueued faults true (by simp [hgzip])
        rw [Bool.or_true] at hmoved
        exact hmoved
      · have hmoved := hqueued faults false (by simp [hidentity])
        rw [Bool.or_false] at hmoved
        exact hmoved
    · have hmoved := hdropped faults false
      rw [Bool.or_false] at hmoved
      exact hmoved.fails herror
  | borrowed =>
    simp only [recordSend, modifyStream, wp_bind, wp_modify, wp_when]
    refine ⟨fun hgzip => ?_, fun hidentity => ?_⟩
    · refine enqueueSend_rollback (fun faults => ?_) fun error faults herror => ?_
      · have hmoved := hqueued faults true (by simp [hgzip])
        rw [Bool.or_true] at hmoved
        exact hmoved
      · have hmoved := hdropped faults true
        rw [Bool.or_true] at hmoved
        exact hmoved.fails herror
    · refine enqueueSend_rollback (fun faults => ?_) fun error faults herror => ?_
      · have hmoved := hqueued faults false (by simp [hidentity])
        rw [Bool.or_false] at hmoved
        exact hmoved
      · have hmoved := hdropped faults false
        rw [Bool.or_false] at hmoved
        exact hmoved.fails herror

theorem sendCommit_moves {index : ℕ} {send : SendInProgress}
    (hsend : w.sending[index]? = some send) (h : Undone w₀ w) :
    wp (sendCommit send) (fun _ => AppMoves w₀) (Failed w₀)
      { w with sending := w.sending.eraseIdx index } := by
  have hdropped := h.tail (.sendDropped index) ⟨rfl, rfl⟩
  unfold sendCommit
  rw [wp_get_bind, wp_bind]
  refine checkSendLocked_allowed (fun hallowed _ => ?_) fun _ => hdropped.fails
  rw [wp_bind]
  exact checkOutboundCapacityLocked_fits hdropped fun hfits =>
    commitSend_moves hsend hallowed hfits h

/-! ## Any operation -/

theorem appAction_moves (action : AppAction) :
    wp (appAction action) (fun _ => AppMoves w) (Failed w) w := by
  have hundone : Exits (Undone w) (Failed w) (appAction action) →
      wp (appAction action) (fun _ => AppMoves w) (Failed w) w :=
    fun hexits => wp_imp (hexits w .refl) fun _ _ h => h.moves
  cases action with
  | sendBegin handle payload compression =>
    exact wp_imp (sendBegin_undone handle payload compression) fun _ _ h => h.moves
  | sendCommit =>
    unfold appAction
    rw [wp_get_bind]
    split
    · exact .refl
    · rename_i hsend
      rw [wp_modify_bind]
      exact sendCommit_moves hsend .refl
  | sendInitialMetadata entries compression =>
    exact hundone (serverCallSendInitialMetadata_undone entries compression)
  | callFinish status trailing => exact hundone (serverCallFinish_undone status trailing)
  | streamFinish status => exact hundone (streamFinish_undone status)
  | resumeReceive handle => exact hundone (resumeReceive_undone handle)
  | abort => exact hundone serverCallAbort_undone
  | contextCompression | contextInitialMetadata =>
    apply hundone
    rw [appAction]
    apply modifyContext_undone
    exact fun _ => rfl
  | contextTrailingMetadata entry => exact hundone (addTrailingMetadata_undone entry)

theorem perform_moves (action : AppAction) : Ends (AppMoves w₀) (perform action) := by
  intro w h
  unfold perform
  rw [wp_tryCatch, wp_bind]
  refine wp_mono (appAction_moves action) (fun _ w₁ h₁ => ?_) fun error w₁ h₁ => ?_
  · exact (h.trans h₁).tail (.note action none nofun)
  · refine (h.trans h₁.1.moves).tail (.note action (some error) fun heq => h₁.2 ?_)
    exact Option.some.inj heq

theorem appActions_moves (actions : List AppAction) : Ends (AppMoves w₀) (appActions actions) := by
  induction actions with
  | nil => exact .pure _
  | cons action rest ih => exact .bind (perform_moves action) fun _ => ih

theorem lock_moves : Ends (AppMoves w₀) lock := by
  refine .bind .get fun w => ?_
  split
  · exact .pure _
  · exact .bind (.modify fun _ h => h.tail (.env _)) fun _ => appActions_moves _

theorem callback_moves (kind : Callback) :
    wp (callback kind) (fun _ => AppMoves (w.noted (.callback kind))) never w := by
  unfold callback note
  rw [wp_modify_bind]
  suffices hruns : Ends (AppMoves (w.noted (.callback kind))) _ from hruns _ .refl
  refine .bind .get fun w => ?_
  split
  · exact .bind .get fun _ => .pure _
  · exact .bind (.modify fun _ h => h.tail (.env _)) fun _ =>
      .bind (appActions_moves _) fun _ => .pure _

end Application

end GrpcLite.Server
