import GrpcLite.Server.AppMoves

/-!
# The moves of the reactor

Every function of the reactor, and so every step, is a sequence of moves.  An invariant of the
moves holds in every state of every call, also between two commands of one batch.
-/

namespace GrpcLite.Server

open Prog

/-! ## Stopping a call -/

structure Stops (c₀ : Config) (hand : Hand) (w : World) : Prop where
  base : w.Base
  moves : StopMoves c₀ ⟨hand, w⟩

structure SameStopping (w w' : World) : Prop where
  batch : w'.batch = w.batch
  registered : w'.registered = w.registered
  session : w'.session = w.session
  destroyed : w'.destroyed = w.destroyed
  started : w'.stream.streaming.isSome = w.stream.streaming.isSome
  finished : w'.stream.responseFinished = w.stream.responseFinished
  headersSubmitted : w'.stream.responseHeadersSubmitted = w.stream.responseHeadersSubmitted
  transportClosed : w'.stream.transportClosed = w.stream.transportClosed
  terminations : w'.log.terminations = w.log.terminations

variable {c c' : Config}

theorem StopMove.same {w₀ : World} {hand : Hand} {w : World} (hmove : StopMove hand w c)
    (h : SameStopping w₀ w) : SameStopping w₀ c.world := by
  cases hmove with
  | app hmove =>
    have hsame := hmove.same (.refl _)
    exact ⟨hsame.batch.trans h.batch, hsame.registered.trans h.registered,
      hsame.session.trans h.session, hsame.destroyed.trans h.destroyed,
      hsame.started.trans h.started, hsame.finished.trans h.finished,
      hsame.headersSubmitted.trans h.headersSubmitted,
      hsame.transportClosed.trans h.transportClosed, hsame.terminations.trans h.terminations⟩
  | clear => exact { h with started := by simpa using h.started }
  | _ => exact { h with }

section

variable (h : StopMoves c c')

include h

theorem StopMoves.same : SameStopping c.world c'.world := by
  induction h with
  | refl => constructor <;> rfl
  | tail _ hmove ih => exact hmove.same ih

theorem StopMoves.unfailed (hunfailed : c.world.Unfailed) :
    c'.world.Unfailed := by
  unfold World.Unfailed
  rw [h.same.terminations]
  exact hunfailed

theorem StopMoves.inactive (hc : c.world.stream.streamingActive = false) :
    c'.world.stream.streamingActive = false :=
  Moves.inactive (Relation.ReflTransGen.mono (fun _ _ => Move.stop) _ _ h) hc

theorem StopMoves.active (hactive : c'.world.stream.streamingActive) :
    c.world.stream.streamingActive := by
  by_contra hstopped
  have hinactive := h.inactive (Bool.eq_false_of_not_eq_true hstopped)
  cases hinactive.symm.trans hactive

theorem StopMoves.closing (hc : c.world.closing = true) :
    c'.world.closing = true := by
  induction h with
  | refl => exact hc
  | tail _ hmove ih =>
    cases hmove with
    | app hmove => exact (hmove.same (.refl _)).closing.trans ih
    | close => rfl
    | _ => exact ih

end

section Stopping

variable {α : Type} {c₀ : Config} {hand : Hand} {w : World}

theorem World.Base.stops (h : w.Base) : Stops ⟨hand, w⟩ hand w := ⟨h, .refl⟩

variable {w' : World}

variable {hand' : Hand}

theorem Stops.move (h : Stops c₀ hand w) (hmove : StopMove hand w ⟨hand', w'⟩) :
    Stops c₀ hand' w' :=
  ⟨hmove.base h.base, h.moves.tail hmove⟩

theorem Stops.trans (h : Stops c₀ hand w) (h' : Stops ⟨hand, w⟩ hand' w') : Stops c₀ hand' w' :=
  ⟨h'.base, h.moves.trans h'.moves⟩

theorem Stops.app (h : Stops c₀ hand w) (h' : AppMoves w w') : Stops c₀ hand w' := by
  induction h' with
  | refl => exact h
  | tail _ hmove ih => exact ih.move (.app hmove)

/-- What holds of the reactor's part of the call holds after an operation of the application. -/
theorem ends_of_app {x : CallM α} {I : World → Prop} (hx : ∀ w, Ends (AppMoves w) x)
    (hI : ∀ w w', I w → AppMoves w w' → I w') : Ends I x :=
  fun w h => wp_imp (hx w w .refl) fun _ w' h' => hI w w' h h'

theorem lock_stops : Ends (Stops c₀ hand) lock :=
  ends_of_app (fun _ => lock_moves) fun _ _ h h' => h.app h'

theorem removeStreamDeadline_stops : Ends (Stops c₀ hand) removeStreamDeadline :=
  .modify fun _ h => h.move .deadline

theorem releaseOutboundReservation_stops (length : ℕ) (notifyWritable : Bool)
    (h : Stops c₀ { hand with releasing := hand.releasing + length } w)
    (hsilent : notifyWritable = false → hand.failing ∨ w.stream.streamingActive = false) :
    wp (releaseOutboundReservation length notifyWritable) (fun _ => Stops c₀ hand) never w := by
  unfold releaseOutboundReservation
  refine wp_seq (lock_moves w .refl) fun _ w₁ h₁ => ?_
  have hstops := h.app h₁
  rw [wp_modify_bind, wp_get_when]
  refine ⟨fun hdue => ?_, fun hquiet => ?_⟩
  · obtain ⟨_, hrequested, hactive, hunfinished, hopen, hlow⟩ := hdue
    have hwritable : w₁.Writable (w₁.stream.outboundReservedBytes - length) :=
      ⟨hrequested, hactive, Bool.eq_false_of_not_eq_true hunfinished,
        Bool.eq_false_of_not_eq_true hopen, hlow⟩
    have hstarted := hstops.base.started hactive
    unfold modifyStream
    rw [wp_modify_bind, wp_when]
    refine ⟨fun _ => ?_, fun hnone => absurd hstarted hnone⟩
    rw [wp_bind]
    have htold := hstops.move (.writable length hand.releasing rfl hwritable hstarted)
    exact wp_imp (callback_moves .writable) fun _ _ h₂ => htold.app h₂
  · refine hstops.move (.release length hand.releasing rfl ?_)
    cases notifyWritable with
    | true =>
      refine .inr fun hwritable => hquiet ?_
      obtain ⟨hrequested, hactive, hunfinished, hopen, hlow⟩ := hwritable
      exact ⟨rfl, hrequested, hactive, Bool.not_eq_true _ ▸ hunfinished,
        Bool.not_eq_true _ ▸ hopen, hlow⟩
    | false =>
      refine (hsilent rfl).imp_right fun hinactive hwritable => ?_
      cases (h₁.same.active.trans hinactive).symm.trans hwritable.2.1

theorem discardStreamCommands_stops (h : Stops c₀ hand w)
    (hinactive : w.stream.streamingActive = false) (hlive : w.destroyed = 0) :
    wp discardStreamCommands
      (fun _ w' => Stops c₀ hand w' ∧ SameReactor w w' ∧ w'.commands = []) never w := by
  unfold discardStreamCommands
  refine wp_seq (lock_moves w .refl) fun _ w₁ h₁ => ?_
  have hsame := h₁.same
  rw [wp_modify]
  exact ⟨(h.app h₁).move (.discard (hsame.active.trans hinactive) (hsame.destroyed.trans hlive)),
    { hsame with }, rfl⟩

theorem dropResponse_stops (h : Stops c₀ hand w) (hinactive : w.stream.streamingActive = false)
    (hopen : w.stream.transportClosed = false)
    (huncut : w.dead = true ∨ hand.aborting = true ∨ w.Uncut) :
    wp dropResponse (fun _ => Stops c₀ hand) never w := by
  unfold dropResponse
  refine wp_seq (discardStreamCommands_stops h hinactive (h.base.alive hopen))
    fun _ w₁ ⟨h₁, hsame, _⟩ => ?_
  have hinactive₁ := hsame.active.trans hinactive
  unfold clearOutbound modifyStreaming modifyStream
  rw [wp_bind, wp_get_bind]
  split
  · exact releaseOutboundReservation_stops 0 false h₁ fun _ => .inr hinactive₁
  · rename_i streaming hstreaming
    rw [wp_modify_bind, wp_pure]
    have hunsent : (streaming.outbound.map fun item => item.bytes.length - item.offset).sum =
        w₁.unsent := by
      simp [World.unsent, World.outbound, outboundBytes, hstreaming]
    have huncut₁ : w₁.dead = true ∨ hand.aborting = true ∨ w₁.Uncut :=
      huncut.imp hsame.dead.trans (Or.imp_right hsame.uncut)
    rw [hunsent]
    exact releaseOutboundReservation_stops w₁.unsent false
      (h₁.move (.clear hinactive₁ (hsame.transportClosed.trans hopen) huncut₁))
      fun _ => .inr hinactive₁

theorem cancelStreaming_stops (reason : TerminalReason) (h : Stops c₀ hand w)
    (hcalm : hand.cancelling = false) (hopen : w.stream.transportClosed = false)
    (hending : w.dead = true ∨ hand.ending = true ∧ w.Uncut) :
    wp (cancelStreaming reason) (fun _ => Stops c₀ hand) never w := by
  unfold cancelStreaming
  rw [wp_get_when]
  refine ⟨fun hstarted => ?_, fun _ => h⟩
  unfold removeStreamDeadline modifyStream
  rw [wp_modify_bind]
  refine wp_seq (lock_moves _ .refl) fun _ w₁ h₁ => ?_
  have h₁' := (h.move .deadline).app h₁
  rw [wp_get_when]
  refine ⟨fun hnew => ?_, fun _ => h₁'⟩
  have hopen₁ : w₁.stream.transportClosed = false := h₁.same.transportClosed.trans hopen
  have hending₁ : w₁.dead = true ∨ hand.ending = true ∧ w₁.Uncut :=
    hending.imp h₁.same.dead.trans (And.imp_right h₁.same.uncut)
  rw [wp_modify_bind, wp_get_bind, wp_bind]
  have hcancelled := h₁'.move (.cancel reason (h₁.same.started.trans hstarted)
    (by simpa using hnew) hopen₁ hcalm (hending₁.imp_right And.left))
  -- the callback follows once the response is dropped, and closes the hand
  have hrest : ∀ w₂, Stops c₀ { hand with cancelling := true } w₂ →
      w₂.stream.streamingActive = false → w₂.stream.transportClosed = false →
      w₂.dead = true ∨ w₂.Uncut →
      wp (do dropResponse; let _ ← callback .cancel) (fun _ => Stops c₀ hand) never w₂ := by
    intro w₂ h₂ hinactive hopen₂ huncut₂
    refine wp_seq (dropResponse_stops h₂ hinactive hopen₂ (huncut₂.imp_right .inr))
      fun _ w₃ h₃ => ?_
    have hcalled := h₃.move (.cancelled rfl)
    rw [show { ({ hand with cancelling := true } : Hand) with cancelling := false } = hand by
      rw [← hcalm]] at hcalled
    exact wp_seq (callback_moves .cancel) fun _ _ h₄ => hcalled.app h₄
  have huncut₁ : w₁.dead = true ∨ w₁.Uncut := hending₁.imp_right And.right
  rw [wp_when]
  refine ⟨fun _ => ?_, fun _ => ?_⟩
  · exact hrest _ (hcancelled.move .cancelFlag) rfl hopen₁ huncut₁
  · exact hrest _ hcancelled rfl hopen₁ huncut₁

theorem cancelUnfinished_stops (h : Stops c₀ hand w) (hcalm : hand.cancelling = false)
    (hopen : w.stream.transportClosed = false) (hdead : w.dead = true) :
    wp cancelUnfinished (fun _ => Stops c₀ hand) never w := by
  unfold cancelUnfinished connectionTerminalReason
  rw [wp_get_when]
  refine ⟨fun _ => ?_, fun _ => h⟩
  rw [wp_bind]
  refine wp_seq (lock_moves w .refl) fun _ w₁ h₁ => ?_
  rw [wp_get_bind, wp_pure]
  exact cancelStreaming_stops _ (h.app h₁) hcalm (h₁.same.transportClosed.trans hopen)
    (.inl (h₁.same.dead.trans hdead))

theorem World.dead_of_closing (hclosing : w.closing = true) : w.dead = true := by
  simp [World.dead, hclosing]

theorem World.dead_of_reset (hreset : w.stream.resetSubmitted = true) : w.dead = true := by
  simp [World.dead, hreset]

theorem World.dead_of_unregistered (hgone : w.registered = false) : w.dead = true := by
  simp [World.dead, hgone]

theorem World.live_of_readable (hreadable : w.readable) : w.dead = false := by
  simp only [World.readable, Bool.and_eq_true, Bool.not_eq_true'] at hreadable
  simp [World.dead, hreadable]

/-- A deadline that expires cuts no frame that the history does not say is cut. -/
theorem World.uncut_of_expires {now : ℕ} (hmarked : w.cutsFrame (.expire now) = true →
    w.log.cut = true)
    (hexpires : w.expires now = true) : w.Uncut := by
  rcases hout : w.outbound with _ | ⟨item, rest⟩
  · exact .inr (by simp [World.partlySent, hout])
  by_cases hoffset : item.offset = 0
  · exact .inr (by simp [World.partlySent, hout, hoffset])
  · exact .inl (hmarked (by simp [World.cutsFrame, hexpires, hout, Nat.pos_of_ne_zero hoffset]))

theorem closeConnection_closes (h : Stops c₀ hand w) (hcalm : hand.cancelling = false) :
    wp closeConnection (fun _ w' => Stops c₀ hand w' ∧ w'.closing = true) never w := by
  unfold closeConnection
  rw [wp_get_when]
  refine ⟨fun _ => ?_, fun hclosing => ⟨h, by simpa using hclosing⟩⟩
  rw [wp_modify_bind, wp_get_when]
  have hclosed := h.move .close
  refine ⟨fun hregistered => ?_, fun _ => ⟨hclosed, rfl⟩⟩
  exact wp_imp (cancelUnfinished_stops hclosed.base.stops hcalm (h.base.opened hregistered)
    (World.dead_of_closing rfl)) fun _ _ h' => ⟨hclosed.trans h', h'.moves.closing rfl⟩

theorem closeConnection_stops (hcalm : hand.cancelling = false) :
    Ends (Stops c₀ hand) closeConnection :=
  fun _ h => wp_imp (closeConnection_closes h hcalm) fun _ _ h' => h'.1

end Stopping

/-! ## Failing a call -/

/-- The state after some moves from `c₀`, with what the reactor has in hand. -/
structure Reach (c₀ : Config) (hand : Hand) (w : World) : Prop where
  base : w.Base
  moves : Moves c₀ ⟨hand, w⟩
  inHand : w.batch = hand.batch
  calm : hand.cancelling = false
  rested : w.Rested hand

theorem StopMoves.rested (h : StopMoves c c') (hbase : c.world.Base) (hc : c.world.Rested c.hand) :
    c'.world.Base ∧ c'.world.Rested c'.hand := by
  induction h with
  | refl => exact ⟨hbase, hc⟩
  | tail _ hmove ih => exact ⟨hmove.base ih.1, hmove.rested ih.1 ih.2⟩

section Failing

variable {α : Type} {c₀ : Config} {hand : Hand} {w : World}

variable {hand' : Hand} {w' : World}

section

variable (h : Reach c₀ hand w)

include h

theorem Reach.move (hmove : Move hand w ⟨hand', w'⟩)
    (hinHand : w'.batch = hand'.batch) (hcalm : hand'.cancelling = false) : Reach c₀ hand' w' :=
  ⟨hmove.base h.base, h.moves.tail hmove, hinHand, hcalm, hmove.rested h.base h.rested⟩

theorem Reach.quiet (hmove : Move hand w ⟨hand', w'⟩)
    (hsame : (w'.batch, hand'.batch, hand'.cancelling) = (w.batch, hand.batch, hand.cancelling)) :
    Reach c₀ hand' w' := by
  simp only [Prod.mk.injEq] at hsame
  exact h.move hmove (hsame.1.trans (h.inHand.trans hsame.2.1.symm)) (hsame.2.2.trans h.calm)

theorem Reach.root : Reach ⟨hand, w⟩ hand w :=
  ⟨h.base, .refl, h.inHand, h.calm, h.rested⟩

theorem Reach.trans (h' : Reach ⟨hand, w⟩ hand' w') : Reach c₀ hand' w' :=
  { h' with moves := h.moves.trans h'.moves }

theorem Reach.stops (h' : Stops ⟨hand, w⟩ hand' w')
    (hbatch : hand'.batch = hand.batch) (hcalm : hand'.cancelling = false) : Reach c₀ hand' w' where
  base := h'.base
  moves := h.moves.trans (Relation.ReflTransGen.mono (fun _ _ => Move.stop) _ _ h'.moves)
  inHand := h'.moves.same.batch.trans (h.inHand.trans hbatch.symm)
  calm := hcalm
  rested := (h'.moves.rested h.base h.rested).2

theorem Reach.stop (h' : Stops ⟨hand, w⟩ hand w') :
    Reach c₀ hand w' := h.stops h' rfl h.calm

theorem Reach.app (h' : AppMoves w w') : Reach c₀ hand w' :=
  h.stop (h.base.stops.app h')

theorem Reach.env (env : Env) : Reach c₀ hand { w with env := env } :=
  h.app (.single (.env env))

end

theorem ends_of_stop {x : CallM α}
    (hx : hand.cancelling = false → ∀ c₀, Ends (Stops c₀ hand) x) : Ends (Reach c₀ hand) x :=
  fun w h => wp_imp (hx h.calm _ w h.base.stops) fun _ _ h' => h.stop h'

theorem lock_reaches : Ends (Reach c₀ hand) lock := ends_of_stop fun _ _ => lock_stops

theorem releaseOutboundReservation_reaches (hand : Hand) (length : ℕ) (notifyWritable : Bool)
    (h : Reach c₀ { hand with releasing := hand.releasing + length } w)
    (hsilent : notifyWritable = false → hand.failing ∨ w.stream.streamingActive = false) :
    wp (releaseOutboundReservation length notifyWritable)
      (fun _ w' => Reach c₀ hand w' ∧ (w.Unfailed → w'.Unfailed) ∧
        w'.stream.streaming.isSome = w.stream.streaming.isSome) never w :=
  wp_imp (releaseOutboundReservation_stops length notifyWritable h.base.stops hsilent)
    fun _ _ h' => ⟨h.stops h' rfl h.calm, h'.moves.unfailed, h'.moves.same.started⟩

theorem closeConnection_ends (h : Reach c₀ hand w) :
    wp closeConnection (fun _ w' => Reach c₀ hand w' ∧ w'.closing = true) never w :=
  wp_imp (closeConnection_closes h.base.stops h.calm) fun _ _ h' => ⟨h.stop h'.1, h'.2⟩

theorem closeConnection_reaches : Ends (Reach c₀ hand) closeConnection :=
  fun _ h => wp_imp (closeConnection_ends h) fun _ _ h' => h'.1

theorem removeStreamDeadline_reaches : Ends (Reach c₀ hand) removeStreamDeadline :=
  ends_of_stop fun _ _ => removeStreamDeadline_stops

theorem external_reaches (error : CallError) : Keeps (Reach c₀ hand) (external error) :=
  fun _ h => external_wp (fun _ => h.env _) fun _ => h.env _

theorem copyMetadataEntries_copied (entries : List Entry) {R : Bool → World → Prop}
    (hall : ∀ copied complete faults, Copied entries copied complete → R complete { w with
      env := { w.env with faults := faults }
      stream := { w.stream with trailingMetadata := w.stream.trailingMetadata ++ copied } }) :
    wp (copyMetadataEntries entries) (fun _ => R true) (fun _ => R false) w := by
  induction entries generalizing w R with
  | nil =>
    have hnone := hall [] true w.env.faults ⟨List.prefix_rfl, by simp, fun _ => rfl⟩
    rwa [List.append_nil] at hnone
  | cons entry rest ih =>
    have hstop : ∀ faults, R false { w with env := { w.env with faults := faults } } := by
      intro faults
      have hnone := hall [] false faults ⟨List.nil_prefix, by simp, nofun⟩
      rwa [List.append_nil] at hnone
    unfold copyMetadataEntries modifyStream
    rw [wp_bind, wp_ensure]
    refine ⟨fun hkey => ?_, fun _ => hstop w.env.faults⟩
    rw [wp_bind, wp_ensure]
    refine ⟨fun _ => ?_, fun _ => hstop w.env.faults⟩
    rw [wp_bind]
    refine external_wp (fun faults => ?_) fun faults => hstop faults
    rw [wp_modify_bind]
    refine ih fun copied complete faults' hcopied => ?_
    have hmore := hall (entry :: copied) complete faults'
      ⟨(List.prefix_cons_inj entry).mpr hcopied.isPrefix,
        List.forall_mem_cons.mpr ⟨hkey, hcopied.valid⟩,
        fun hcomplete => by rw [hcopied.whole hcomplete]⟩
    rw [List.append_assoc]
    exact hmore

variable {R : World → Prop} {Q : Unit → World → Prop} {E : CallError → World → Prop}

theorem copyTrailers_copied (event : StatusOrigin) (source : TrailerSource) (entries : List Entry)
    (hall : ∀ copied complete faults, Copied entries copied complete → R { w with
      env := { w.env with faults := faults }
      stream := { w.stream with trailingMetadata := w.stream.trailingMetadata ++ copied }
      log := { w.log with
        terminations := w.log.terminations ++
          [⟨event, source, entries, w.contextTrailing, complete⟩] } }) :
    wp (copyTrailers event source entries) (fun _ => R) (fun _ => R) w := by
  unfold copyTrailers recordTermination
  simp only [wp_tryCatch, wp_bind, wp_modify, wp_throw]
  exact copyMetadataEntries_copied entries (R := fun complete w' => R { w' with log := { w'.log with
    terminations := w'.log.terminations ++
      [⟨event, source, entries, w'.contextTrailing, complete⟩] } }) hall

theorem setStatus_reaches (code : Code) (text : String) :
    Keeps (Reach c₀ hand) (setStatus code text) :=
  .bind (.when fun _ => external_reaches _) fun _ => .modify fun _ h => h.quiet (.failStatus _) rfl

theorem setStatus_done (code : Code) (text : String) (hok : ∀ faults, Q () { w with
      env := { w.env with faults := faults }
      origin := .failure
      stream := { w.stream with responseStatus := .init code text } })
    (hfail : ∀ error faults, E error { w with env := { w.env with faults := faults } }) :
    wp (setStatus code text) Q E w := by
  unfold setStatus
  rw [wp_bind, wp_when]
  exact ⟨fun _ => external_wp (fun faults => hok faults) fun faults => hfail _ faults,
    fun _ => hok w.env.faults⟩

theorem submitStreamingResponse_outcome (entries : List Entry) (hok : ∀ kept faults, Q () { w with
      env := { w.env with faults := faults }
      log := { w.log with headers := some (w.stream.responseCompression, kept) } })
    (hfail : ∀ error faults, E error { w with env := { w.env with faults := faults } }) :
    wp (submitStreamingResponse entries) Q E w := by
  unfold submitStreamingResponse
  rw [wp_bind]
  refine external_wp (fun _ => ?_) fun _ => hfail _ _
  rw [wp_bind]
  exact external_wp (fun _ => hok _ _) fun _ => hfail _ _

theorem announce_outcome (entries : List Entry) (compression : Compression)
    (hnew : w.log.headers = none)
    (h : ∀ outcome env, R { w.announce compression outcome with env := env }) :
    wp (submitStreamingResponse entries) (fun _ => R) (fun _ => R)
      { w with stream := { w.stream with
        responseCompression := compression
        responseHeadersSubmitted := true } } := by
  have hsilent : { w.log with headers := none } = w.log := by rw [← hnew]
  have hunsent := h none
  simp only [World.announce, Option.map_none, hsilent] at hunsent
  exact submitStreamingResponse_outcome entries (fun kept _ => h (some kept) _) fun _ _ => hunsent _

theorem submitReset_reaches (code : ResetCode) : Keeps (Reach c₀ hand) (submitReset code) :=
  .bind (external_reaches _) fun _ => .modify fun _ h => h.quiet (.reset code) rfl

theorem announceFailure_reaches (h : Reach c₀ hand w) (hstarted : w.stream.streaming.isSome)
    (hinactive : w.stream.streamingActive = false) :
    wp (do if (← get).stream.responseHeadersSubmitted then resumeStreamingResponse
           else when (← get).session do
             lock
             modifyStream fun s => { s with
               responseCompression := .identity
               responseHeadersQueued := true
               responseHeadersSubmitted := true }
             tryCatch
               (do submitStreamingResponse []
                   resumeStreamingResponse)
               fun _ => closeConnection) (fun _ => Reach c₀ hand) never w := by
  rw [wp_get_bind, wp_ite]
  refine ⟨fun _ => h, fun hnew => ?_⟩
  rw [wp_get_when]
  refine ⟨fun _ => ?_, fun _ => h⟩
  refine wp_seq (lock_moves w .refl) fun _ w₁ h₁ => ?_
  have hreach := h.app h₁
  have hnew₁ : w₁.stream.responseHeadersSubmitted = false :=
    h₁.same.headersSubmitted.trans (by simpa using hnew)
  unfold modifyStream
  rw [wp_modify_bind, wp_tryCatch, wp_bind]
  refine wp_mono (announce_outcome
    (w := { w₁ with stream := { w₁.stream with responseHeadersQueued := true } }) [] .identity
    (hreach.base.headersNew hnew₁) fun outcome env => ?_)
    (fun _ _ h₂ => h₂) fun _ _ h₂ => closeConnection_reaches _ h₂
  exact (hreach.quiet (.announceFailure outcome (h₁.same.started.trans hstarted)
    (h₁.same.active.trans hinactive) hnew₁) rfl).env env

theorem submitFailureTrailers_reaches (h : Reach c₀ hand w) (hunfailed : w.Unfailed)
    (hstarted : w.stream.streaming.isSome) (hinactive : w.stream.streamingActive = false)
    (hfinished : w.stream.responseFinished) (hopen : w.stream.trailerSubmitted = false) :
    wp submitFailureTrailers (fun _ => Reach c₀ hand) never w := by
  unfold submitFailureTrailers copyStreamingTrailers
  simp only [wp_bind, wp_tryCatch, wp_get]
  obtain ⟨streaming, hstreaming⟩ := Option.isSome_iff_exists.mp hstarted
  have hentries : streaming.context.trailingMetadata = w.contextTrailing := by
    simp [World.contextTrailing, hstreaming]
  simp only [hstreaming, hentries, wp_pure]
  refine copyTrailers_copied .failure .context w.contextTrailing
    fun copied complete faults hcopied => ?_
  have hmoved := (h.env { w.env with faults := faults }).quiet
    (.failTrailers copied complete hstarted hinactive hfinished hopen hunfailed hcopied) rfl
  exact announceFailure_reaches hmoved hstarted hinactive

/-- A call that fails is given a status of its own, or its connection is closed: `ending` may be
put back then. -/
theorem failStreaming_ends (code : Code) (text : String) (h : Reach c₀ hand w)
    (hunfailed : w.Unfailed) (hstarted : w.stream.streaming.isSome) (ending : Bool) :
    wp (failStreaming code text)
      (fun _ w' => Reach c₀ { hand with ending := ending } w' ∧
        w'.stream.streamingActive = false) never w := by
  unfold failStreaming
  rw [wp_get_when]
  refine ⟨fun _ => ?_, fun hnone => absurd hstarted hnone⟩
  unfold removeStreamDeadline modifyStream
  rw [wp_modify_bind]
  refine wp_seq (lock_moves _ .refl) fun _ w₁ h₁ => ?_
  have hreach := (h.stop (h.base.stops.move .deadline)).app h₁
  have hstarted₁ := h₁.same.started.trans hstarted
  have hunfailed₁ : w₁.Unfailed := h₁.same.unfailed hunfailed
  have hfailed := (hreach.quiet .unsettled rfl).quiet (.fail hstarted₁ rfl) rfl
  rw [wp_modify_bind]
  -- whatever follows the failure is made of moves, and these do not start the call again
  refine wp_mono (Q := fun _ => Reach _ { hand with ending := ending }) (E := never) ?_
    (fun _ _ h₂ => ⟨hfailed.trans h₂, h₂.moves.inactive rfl⟩) fun _ _ hfalse => hfalse
  have hroot := hfailed.root
  rw [wp_get_bind, wp_ite]
  refine ⟨fun hsubmitted => ?_, fun hopen => ?_⟩
  · have hsettled := hroot.quiet (.settled ending (.inr (.inl hsubmitted))) rfl
    unfold submitStreamingFailureReset
    rw [wp_tryCatch]
    refine Exits.bind .get (fun _ => .when fun _ => submitReset_reaches _) _ hsettled
  · simp only [wp_bind, wp_tryCatch]
    refine setStatus_done code text (fun faults => ?_) fun error faults => ?_
    · rw [wp_pure, wp_when]
      refine ⟨fun _ => ?_, fun hset => absurd rfl hset⟩
      have hset := ((hroot.env { w₁.env with faults := faults }).quiet
        (.failStatus (.init code text)) rfl).quiet (.settled ending (.inr (.inr rfl))) rfl
      exact submitFailureTrailers_reaches hset hunfailed₁ hstarted₁ rfl rfl (by simpa using hopen)
    · refine wp_imp (closeConnection_ends (hroot.env _)) fun _ w₂ hended => ?_
      obtain ⟨h₂, hclosing⟩ := hended
      rw [wp_pure, wp_when]
      refine ⟨fun hset => absurd hset Bool.false_ne_true, fun _ => ?_⟩
      exact h₂.quiet (.settled ending (.inl (World.dead_of_closing hclosing))) rfl

theorem failStreaming_halts (code : Code) (text : String) (h : Reach c₀ hand w)
    (hunfailed : w.Unfailed) (hstarted : w.stream.streaming.isSome) :
    wp (failStreaming code text)
      (fun _ w' => Reach c₀ hand w' ∧ w'.stream.streamingActive = false) never w :=
  failStreaming_ends code text h hunfailed hstarted hand.ending

end Failing

end GrpcLite.Server
