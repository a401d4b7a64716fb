import GrpcLite.Client.Loop
import Mathlib.Logic.Relation

/-!
# What the application changes

The operations of a client stream as single changes, each with what is known when it is made.
The loop meets them wherever it takes the stream's mutex and inside callbacks, so a property that
these changes keep holds across both.
-/

namespace GrpcLite.Client

open Prog

structure ClientStreamState.IsOpen (s : ClientStreamState) : Prop where
  loopOwned : s.loopOwned
  appOwned : s.appOwned
  unreleased : s.appReleased = false
  uncancelled : s.cancelRequested = false
  unended : s.terminal = false

def World.listed (w : World) : World :=
  { w with stream := { w.stream with
    wakeQueued := w.stream.wakeQueued || (w.stream.loopOwned && w.registered) } }

/-- A change made while the application acts on the stream. -/
inductive AppMove (w : World) : World → Prop
  | env (env : Env) (hfaults : w.env.faults = [] → env.faults = []) :
    AppMove w { w with env := env }
  | inCallback (running : Bool) : AppMove w { w with inCallback := running }
  | sendBegin (payload encoded : Bytes) (compression : Compression)
      (hencoded : Frame.encodeWithCompression w.gzip payload compression = .ok encoded) :
      AppMove w { w with sending := w.sending ++ [(encoded, compression)] }
  | sendDropped (index : ℕ) : AppMove w { w with sending := w.sending.eraseIdx index }
  | blocked (hfull : 0 < w.stream.outboundBuffered) :
      AppMove w { w with stream := { w.stream with backpressureRequested := true } }
  | send (index : ℕ) (encoded : Bytes) (compression : Compression)
      (hsend : w.sending[index]? = some (encoded, compression)) (hopen : w.stream.IsOpen)
      (hsending : w.stream.sendOpen)
      (hfits : encoded.length ≤ w.stream.limits.maxOutboundBufferSize - w.stream.outboundBuffered) :
      AppMove w (World.listed { w with
        sending := w.sending.eraseIdx index
        stream := { w.stream with
          outbound := w.stream.outbound ++ [{ frameBytes := encoded }]
          outboundBuffered := w.stream.outboundBuffered + encoded.length }
        log := { w.log with accepted := w.log.accepted ++ [encoded] } })
  | closeSend (hopen : w.stream.IsOpen) (hsending : w.stream.sendOpen) :
      AppMove w (World.listed { w with
        stream := { w.stream with sendOpen := false }
        log := { w.log with sendClosed := true } })
  | cancel (howned : w.stream.appOwned) (hunended : w.stream.terminal = false) :
      AppMove w (World.listed { w with
        stream := { w.stream with cancelRequested := true }
        log := { w.log with
          cancelledAt := some (w.log.cancelledAt.getD w.log.delivered.length) } })
  | resume (hopen : w.stream.IsOpen) :
      AppMove w (World.listed { w with stream := { w.stream with resumeRequested := true } })
  | release (inside : Bool) (howned : w.stream.appOwned) :
      AppMove w (World.listed { w with
        stream := { w.stream with appOwned := false, appReleased := true, cancelRequested := true }
        log := { w.log with
          marks := w.log.marks ++
            .released inside :: if w.stream.loopOwned then [] else [.destroyed] } })

def AppMoves : World → World → Prop := Relation.ReflTransGen AppMove

def AppClosed (I : World → Prop) : Prop := ∀ ⦃w w' : World⦄, AppMove w w' → I w → I w'

theorem AppMove.released {w w' : World} (hmove : AppMove w w')
    (h : w.stream.appReleased) : w'.stream.appReleased := by
  cases hmove with
  | release => rfl
  | _ => exact h

/-- No cancel comes in, other than with a release. -/
def World.Calm (cancelled : Bool) (w : World) : Prop :=
  w.stream.cancelRequested → cancelled ∨ w.stream.appReleased

/-- What the application's changes keep as long as it does not cancel. -/
def CalmClosed (I : World → Prop) : Prop :=
  ∀ ⦃w w' : World⦄, AppMove w w' → w'.Calm w.stream.cancelRequested → I w → I w'

theorem AppClosed.calm {I : World → Prop} (hI : AppClosed I) : CalmClosed I :=
  fun _ _ hmove _ => hI hmove

theorem CalmClosed.env {I : World → Prop} (hI : CalmClosed I) {w : World} {env : Env}
    (hfaults : w.env.faults = [] → env.faults = []) (h : I w) : I { w with env := env } :=
  hI (.env env hfaults) .inl h

theorem AppClosed.moves {I : World → Prop} (hI : AppClosed I) {w w' : World} (h : AppMoves w w')
    (hw : I w) : I w' := by
  induction h with
  | refl => exact hw
  | tail _ hmove ih => exact hI hmove ih

theorem appMoves_closed (w₀ : World) : AppClosed (AppMoves w₀) :=
  fun _ _ hmove h => h.tail hmove

section Operations

variable {I : World → Prop}

variable {w : World} {E : StreamError → World → Prop} {Q : Unit → World → Prop}

theorem drawFault_wp {Q : Bool → World → Prop}
    (h : ∀ fails faults, (w.env.faults = [] → fails = false ∧ faults = []) →
      Q fails { w with env := { w.env with faults := faults } }) : wp drawFault Q E w := by
  unfold drawFault
  rw [wp_get_bind]
  split
  · exact h false w.env.faults fun hnone => ⟨rfl, hnone⟩
  · rename_i hfaults
    exact h _ _ fun hnone => by cases hfaults.symm.trans hnone

theorem external_wp {error : StreamError} (hok : ∀ faults, (w.env.faults = [] → faults = []) →
      Q () { w with env := { w.env with faults := faults } }) (hfail : ∀ faults, w.env.faults ≠ [] →
      E error { w with env := { w.env with faults := faults } }) : wp (external error) Q E w := by
  unfold external
  rw [wp_bind]
  refine drawFault_wp fun fails faults hfaults => ?_
  rw [wp_ensure]
  refine ⟨fun _ => hok faults fun hnone => (hfaults hnone).2, fun hfails =>
    hfail faults fun hnone => ?_⟩
  exact hfails (by simp [(hfaults hnone).1])

theorem drawFault_ends (hI : AppClosed I) : Ends I drawFault :=
  fun _ h => drawFault_wp fun _ _ hfaults => hI (.env _ fun hnone => (hfaults hnone).2) h

theorem CalmClosed.external (hI : CalmClosed I) (error : StreamError) : Keeps I (external error) :=
  fun _ h => external_wp (fun _ hfaults => hI.env hfaults h) fun _ hsome =>
    hI.env (fun hnone => absurd hnone hsome) h

theorem external_keeps (hI : AppClosed I) (error : StreamError) : Keeps I (external error) :=
  hI.calm.external error

theorem wakeClientStreamLocked_wp (h : Q () w.listed) : wp wakeClientStreamLocked Q E w := by
  unfold wakeClientStreamLocked modifyStream
  rw [wp_get_when, wp_modify]
  refine ⟨fun hlisted => ?_, fun hunlisted => ?_⟩
  · simpa only [World.listed, hlisted.1, hlisted.2, Bool.and_self, Bool.or_true] using h
  · have hnot : (w.stream.loopOwned && w.registered) = false := by simpa using hunlisted
    simpa only [World.listed, hnot, Bool.or_false] using h

theorem checkOpenLocked_wp (hok : w.stream.IsOpen → Q () w) (hfail : ∀ error, E error w) :
    wp checkOpenLocked Q E w := by
  unfold checkOpenLocked
  rw [wp_get_bind, wp_ensure]
  refine ⟨fun hopen => hok ?_, fun _ => hfail _⟩
  simp only [Bool.not_eq_true] at hopen
  exact ⟨hopen.1, hopen.2.1, hopen.2.2.1, hopen.2.2.2.1, hopen.2.2.2.2⟩

theorem checkSendLocked_wp (hok : w.stream.IsOpen → w.stream.sendOpen → Q () w)
    (hfail : ∀ error, E error w) : wp checkSendLocked Q E w := by
  unfold checkSendLocked
  rw [wp_bind]
  refine checkOpenLocked_wp (fun hopen => ?_) hfail
  rw [wp_get_bind, wp_ensure]
  exact ⟨hok hopen, fun _ => hfail _⟩

theorem checkOutboundCapacityLocked_wp {size : ℕ}
    (hok : size ≤ w.stream.limits.maxOutboundBufferSize - w.stream.outboundBuffered → Q () w)
    (hfail : ∀ error, E error w) (hblocked : 0 < w.stream.outboundBuffered →
      E .wouldBlock { w with stream := { w.stream with backpressureRequested := true } }) :
    wp (checkOutboundCapacityLocked size) Q E w := by
  unfold checkOutboundCapacityLocked modifyStream
  rw [wp_get_bind, wp_bind, wp_ensure]
  refine ⟨fun hsize => ?_, fun _ => hfail _⟩
  rw [wp_when, wp_modify_bind, wp_throw]
  exact ⟨fun hfull => hblocked (by omega), fun hfits => hok (Nat.le_of_not_lt hfits)⟩

theorem clientStreamCancel_keeps (hI : AppClosed I) : Keeps I clientStreamCancel := by
  intro w h
  unfold clientStreamCancel
  rw [wp_get_when]
  refine ⟨fun hlive => ?_, fun _ => h⟩
  rw [wp_modify_bind]
  refine wakeClientStreamLocked_wp (hI (.cancel hlive.2.1 ?_) h)
  simpa using hlive.2.2.2

section Walk

variable (hI : CalmClosed I)

include hI

theorem sendBegin_keeps (payload : Bytes) (compression : Compression) :
    Keeps I (sendBegin payload compression) := by
  intro w h
  unfold sendBegin
  rw [wp_get_bind, wp_bind, wp_ensure]
  refine ⟨fun _ => ?_, fun _ => h⟩
  rw [wp_bind, wp_ensure]
  refine ⟨fun _ => ?_, fun _ => h⟩
  rw [wp_bind]
  refine checkSendLocked_wp (fun _ _ => ?_) fun _ => h
  -- the encoder does not change, whatever the capacity check leaves behind
  have hsame : CalmClosed fun w' => I w' ∧ w'.gzip = w.gzip := by
    intro w₁ w₂ hmove hcalm hw₁
    refine ⟨hI hmove hcalm hw₁.1, ?_⟩
    cases hmove <;> exact hw₁.2
  suffices hrest : Keeps (fun w' => I w' ∧ w'.gzip = w.gzip) _ from
    wp_mono (hrest w ⟨h, rfl⟩) (fun _ _ h' => h'.1) fun _ _ h' => h'.1
  refine .bind (.when fun _ => ?_) fun _ => .bind (hsame.external _) fun _ => ?_
  · split
    · exact .throw fun _ => id
    · intro w' h'
      exact checkOutboundCapacityLocked_wp (fun _ => h') (fun _ => h')
        fun hfull => hsame (.blocked hfull) .inl h'
  · split
    · exact .throw fun _ => id
    · rename_i encoded hencoded
      refine .modify fun w' h' => hsame (.sendBegin payload encoded compression ?_) .inl h'
      rw [h'.2]
      exact hencoded

theorem sendCommit_keeps {index : ℕ} {encoded : Bytes}
    {compression : Compression} (h : I w)
    (hsend : w.sending[index]? = some (encoded, compression)) :
    wp (sendCommit encoded) (fun _ => I) (fun _ => I)
      { w with sending := w.sending.eraseIdx index } := by
  have hdropped : I { w with sending := w.sending.eraseIdx index } :=
    hI (.sendDropped index) .inl h
  unfold sendCommit
  rw [wp_bind]
  refine checkSendLocked_wp (fun hopen hsending => ?_) fun _ => hdropped
  rw [wp_bind]
  refine checkOutboundCapacityLocked_wp (fun hfits => ?_) (fun _ => hdropped)
    fun hfull => hI (.blocked hfull) .inl hdropped
  rw [wp_bind]
  refine external_wp (fun faults hfaults => ?_) fun faults hsome =>
    hI.env (fun hnone => absurd hnone hsome) hdropped
  rw [wp_modify_bind]
  refine wakeClientStreamLocked_wp ?_
  have hsent := hI (.send index encoded compression hsend hopen hsending hfits) .inl h
  exact hI.env (by exact hfaults) hsent

theorem clientStreamCloseSend_keeps : Keeps I clientStreamCloseSend := by
  intro w h
  unfold clientStreamCloseSend
  rw [wp_bind]
  refine checkSendLocked_wp (fun hopen hsending => ?_) fun _ => h
  rw [wp_modify_bind]
  exact wakeClientStreamLocked_wp (hI (.closeSend hopen hsending) .inl h)

theorem clientStreamResumeReceive_keeps :
    Keeps I clientStreamResumeReceive := by
  intro w h
  unfold clientStreamResumeReceive modifyStream
  rw [wp_bind]
  refine checkOpenLocked_wp (fun hopen => ?_) fun _ => h
  rw [wp_modify_bind]
  exact wakeClientStreamLocked_wp (hI (.resume hopen) .inl h)

theorem clientStreamRelease_keeps {inside : Bool} (h : I w)
    (howned : w.stream.appOwned) : wp (clientStreamRelease inside) (fun _ => I) (fun _ => I) w := by
  have hreleased := hI (.release inside howned) (fun _ => .inr rfl) h
  unfold clientStreamRelease modifyStream mark modifyLog destroy mark modifyLog
  rw [wp_get_when]
  refine ⟨fun _ => ?_, fun _ => h⟩
  simp only [wp_bind, wp_get, wp_modify, wp_when]
  cases hloop : w.stream.loopOwned with
  | true =>
    simp only [hloop, if_true] at hreleased
    refine ⟨fun _ => ?_, fun hnot => absurd rfl hnot⟩
    exact wakeClientStreamLocked_wp ⟨fun hfalse => absurd hfalse (by decide), fun _ => hreleased⟩
  | false =>
    simp only [hloop, Bool.false_eq_true, if_false] at hreleased
    refine ⟨fun hfalse => absurd hfalse (by decide), fun _ => ⟨fun _ => ?_, fun hnot =>
      absurd Bool.false_ne_true hnot⟩⟩
    simpa only [List.append_assoc, List.singleton_append, World.listed, hloop, Bool.false_and,
      Bool.or_false] using hreleased

theorem perform_calm (inside : Bool) {action : AppAction}
    (hcancel : action = .cancel → AppClosed I) : Ends I (perform inside action) := by
  intro w h
  unfold perform
  rw [wp_get_when]
  refine ⟨fun howned => ?_, fun _ => h⟩
  rw [wp_tryCatch]
  refine wp_imp (?_ : wp _ (fun _ => I) (fun _ => I) w) fun _ _ h' => h'
  cases action with
  | sendBegin payload compression => exact sendBegin_keeps hI payload compression w h
  | sendCommit =>
    unfold appAction
    rw [wp_get_bind]
    split
    · exact h
    · rename_i hsend
      rw [wp_modify_bind]
      exact sendCommit_keeps hI h hsend
  | closeSend => exact clientStreamCloseSend_keeps hI w h
  | cancel => exact clientStreamCancel_keeps (hcancel rfl) w h
  | resumeReceive => exact clientStreamResumeReceive_keeps hI w h
  | release => exact clientStreamRelease_keeps hI h howned

theorem performAll_calm (inside : Bool) {actions : List AppAction}
    (hcancel : .cancel ∈ actions → AppClosed I) : Ends I (performAll inside actions) := by
  induction actions with
  | nil => exact .pure _
  | cons action rest ih =>
    refine .bind (perform_calm hI inside fun heq => hcancel (heq ▸ List.mem_cons_self)) fun _ => ?_
    exact ih fun hmem => hcancel (List.mem_cons_of_mem _ hmem)

end Walk

theorem perform_ends (hI : AppClosed I) (inside : Bool) (action : AppAction) :
    Ends I (perform inside action) :=
  perform_calm hI.calm inside fun _ => hI

theorem lock_ends (hI : AppClosed I) : Ends I lock := by
  unfold lock
  refine .bind .get fun w => ?_
  split
  · exact .pure _
  · exact .bind (.modify fun _ h => hI (.env _ id) h) fun _ => performAll_calm hI.calm _ fun _ => hI

theorem runCallback_wp {kind : Callback} (hI : AppClosed I)
    (h : I { w with log := { w.log with marks := w.log.marks ++ [.callback kind] } }) :
    wp (runCallback kind) (fun _ => I) E w := by
  unfold runCallback mark modifyLog
  rw [wp_modify_bind, wp_modify_bind, wp_get_bind, wp_modify_bind]
  refine wp_ends_seq (performAll_calm hI.calm true (fun _ => hI) _ ?_) fun _ w' h' => ?_
  · exact hI (.env _ id) (hI (.inCallback true) h)
  · rw [wp_modify_bind, wp_pure]
    exact hI (.inCallback false) h'

/-- A cancel that another thread gets in before the loop takes the mutex is among what it does. -/
theorem lock_cancels (hI : AppClosed I) (h : I w) :
    wp lock
      (fun _ w' => I w' ∧ (.cancel ∈ w.env.others.headD [] ∨ w'.Calm w.stream.cancelRequested))
      never w := by
  unfold lock
  rw [wp_get_bind]
  split
  · exact ⟨h, .inr .inl⟩
  · rename_i next rest hnext
    rw [wp_modify_bind, hnext]
    have hlisted := hI (.env { w.env with others := rest } id) h
    by_cases hcancel : .cancel ∈ next
    · exact wp_imp (performAll_calm hI.calm false (fun _ => hI) _ hlisted) fun _ _ h' =>
        ⟨h', .inl hcancel⟩
    · have hcalm : CalmClosed fun w' => I w' ∧ w'.Calm w.stream.cancelRequested := by
        intro w₁ w₂ hmove hcalm h₁
        refine ⟨hI hmove h₁.1, fun hrequested => (hcalm hrequested).elim (fun hbefore => ?_) .inr⟩
        exact (h₁.2 hbefore).imp id fun hreleased => hmove.released hreleased
      exact wp_imp (performAll_calm hcalm false (fun hmem => absurd hmem hcancel) _
        ⟨hlisted, .inl⟩) fun _ _ h' => ⟨h'.1, .inr h'.2⟩

end Operations

end GrpcLite.Client
