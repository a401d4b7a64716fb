import GrpcLite.Client.Operation
import Mathlib.Logic.Relation

/-!
# The life of a unary call

A call waits, is submitted, and ends once.  What decides and reports its outcome is a small part
of the model's state; `Life` is that part, `Life.Step` says how it may change, and every event of
the channel is a sequence of such steps.
-/

namespace GrpcLite.Client

open Prog

/-! ## Credit -/

structure CreditPart where
  received : Bytes
  connectionCredit : ℕ
  streamCredit : ℕ
  callbackFailed : Bool
  tooLarge : Bool
  deriving DecidableEq, Repr

def OperationWorld.credit (w : OperationWorld) : CreditPart :=
  ⟨w.log.received, w.log.connectionCredit, w.log.streamCredit, w.log.callbackFailed,
    w.operation.responseHeadersTooLarge⟩

/-- The credit of a chunk of DATA is returned, unless the response headers were rejected or the
callback fails on the way. -/
inductive CreditPart.Step (c : CreditPart) : CreditPart → Prop
  | reject : Step c { c with tooLarge := true }
  | chunk (data : Bytes) (hfits : ¬c.tooLarge) : Step c { c with
      received := c.received ++ data
      connectionCredit := c.connectionCredit + data.length
      streamCredit := c.streamCredit + data.length }
  | discard (data : Bytes) (hrejected : c.tooLarge) : Step c { c with
      received := c.received ++ data
      connectionCredit := c.connectionCredit + data.length }
  | fail (data : Bytes) {connection stream : ℕ}
      (hconnection : connection ≤ c.connectionCredit + data.length)
      (hstream : stream ≤ c.streamCredit + data.length) : Step c { c with
      received := c.received ++ data
      connectionCredit := connection
      streamCredit := stream
      callbackFailed := true }

/-! ## Life -/

structure Life where
  place : Place
  finished : Bool
  active : Bool
  pending : Bool
  outcomeSet : Bool
  status : Status
  reported : List Status
  stats : OperationalStats
  credit : CreditPart
  deriving DecidableEq, Repr

def OperationWorld.life (w : OperationWorld) : Life where
  place := w.place
  finished := w.operation.finished
  active := w.operation.operationalActive
  pending := w.operation.operationalPending
  outcomeSet := w.operation.outcomeSet
  status := ⟨w.operation.responseCode, w.operation.responseMessage⟩
  reported := w.log.completions.map Completion.status
  stats := w.stats
  credit := w.credit

namespace Life

def record (l : Life) (outcome : Status) : Life :=
  { l with outcomeSet := true, status := outcome }

def unpended (l : Life) : Life := { l with
  pending := false
  stats := if l.pending then l.stats.subtract .pendingUnaryCalls 1 else l.stats }

def done (l : Life) : Life := { l.unpended with
  finished := true
  active := false
  reported := l.reported ++ [l.status]
  stats :=
    if l.active then l.unpended.stats.terminal .activeUnaryCalls l.status.code
    else l.unpended.stats }

/-- An outcome is recorded, or an attempt to record one fails. -/
inductive Recorded (l : Life) : Life → Prop
  | same : Recorded l l
  | first (outcome : Status) (hunset : l.outcomeSet = false) : Recorded l (l.record outcome)

inductive Step (l : Life) : Life → Prop
  | queue (hplace : l.place = .pending) : Step l { l with place := .waiting }
  | submit (hplace : l.place = .waiting) : Step l { l.unpended with place := .mapped }
  | record {l' : Life} (hplace : l.place = .mapped) (hrecorded : l.Recorded l') : Step l l'
  | lose (hplace : l.place = .mapped) : Step l { l with place := .lost }
  | credit {c : CreditPart} (hplace : l.place = .mapped) (hcredit : l.credit.Step c) :
      Step l { l with credit := c }
  | finish {l' : Life} (hplace : l.place.kept)
      (hrecorded : { l with place := .detached }.Recorded l') : Step l l'.done

abbrev Steps : Life → Life → Prop := Relation.ReflTransGen Step

variable {l l' : Life}

theorem Recorded.then {l₁ l₂ : Life} (h₁ : l.Recorded l₁) (h₂ : l₁.Recorded l₂) :
    l.Recorded l₂ := by
  cases h₁ with
  | same => exact h₂
  | first outcome hunset =>
    cases h₂ with
    | same => exact .first outcome hunset
    | first other hset => cases hset

theorem done_unpended (l : Life) : l.unpended.done = l.done := by
  simp [done, unpended]

theorem Recorded.of_unpended (h : l.unpended.Recorded l') :
    ∃ l'', l.Recorded l'' ∧ l'.done = l''.done := by
  cases h with
  | same => exact ⟨l, .same, done_unpended l⟩
  | first outcome hunset =>
    exact ⟨l.record outcome, .first outcome hunset, done_unpended (l.record outcome)⟩

theorem Recorded.place (h : l.Recorded l') : l'.place = l.place := by
  cases h <;> rfl

theorem Recorded.eq (h : l.Recorded l') (hset : l.outcomeSet) : l' = l := by
  cases h with
  | same => rfl
  | first outcome hunset => rw [hset] at hunset; cases hunset

/-- The flags agree with the place, and a call that has ended has reported its outcome. -/
structure Sound (l : Life) : Prop where
  pending : l.pending ↔ l.place = .pending ∨ l.place = .waiting
  active : l.active = !l.finished
  finished : l.finished ↔ l.place = .detached
  reported : l.reported = if l.finished then [l.status] else []

theorem Sound.step (h : l.Sound) (hstep : l.Step l') : l'.Sound := by
  have hopen (hkept : l.place.kept) : l.finished = false := by
    refine Bool.eq_false_iff.mpr fun hfinished => ?_
    rw [h.finished.mp hfinished] at hkept
    cases hkept
  cases hstep with
  | queue hplace =>
    have hlive := hopen (by rw [hplace]; rfl)
    exact ⟨by simp [h.pending, hplace], h.active, by simp [hlive], h.reported⟩
  | submit hplace =>
    have hlive := hopen (by rw [hplace]; rfl)
    exact ⟨by simp [unpended], h.active, by simp [unpended, hlive], h.reported⟩
  | record hplace hrecorded =>
    cases hrecorded with
    | same => exact h
    | first =>
      have hlive := hopen (by rw [hplace]; rfl)
      refine ⟨h.pending, h.active, h.finished, ?_⟩
      simpa [record, hlive] using h.reported
  | lose hplace =>
    have hlive := hopen (by rw [hplace]; rfl)
    exact ⟨by simp [h.pending, hplace], h.active, by simp [hlive], h.reported⟩
  | credit => exact { h with }
  | @finish l₁ hplace hrecorded =>
    have hlive := hopen hplace
    have hsame : l₁.place = .detached ∧ l₁.reported = [] := by
      have hreported := h.reported
      rw [hlive] at hreported
      cases hrecorded with
      | same | first => exact ⟨rfl, hreported⟩
    exact ⟨by simp [done, unpended, hsame.1], rfl, by simp [done, unpended, hsame.1],
      by simp [done, unpended, hsame.2]⟩

structure Settled (status : Status) (l : Life) : Prop extends l.Sound where
  outcomeSet : l.outcomeSet
  status_eq : l.status = status

theorem Settled.step {status : Status} (h : l.Settled status) (hstep : l.Step l') :
    l'.Settled status := by
  have hsame : l'.outcomeSet = l.outcomeSet ∧ l'.status = l.status := by
    cases hstep with
    | queue | submit | lose | credit => exact ⟨rfl, rfl⟩
    | record hplace hrecorded => rw [hrecorded.eq h.outcomeSet]; exact ⟨rfl, rfl⟩
    | finish hplace hrecorded =>
      rw [hrecorded.eq h.outcomeSet]
      exact ⟨rfl, rfl⟩
  exact { h.toSound.step hstep with
    outcomeSet := hsame.1 ▸ h.outcomeSet
    status_eq := hsame.2.trans h.status_eq }

end Life

namespace Operation

/-! ## What the functions of the loop keep -/

variable {w : OperationWorld}

variable {E : StreamError → OperationWorld → Prop} {x : OperationM Unit}

theorem drawFault_wp {Q : Bool → OperationWorld → Prop}
    (h : ∀ fails rest, Q fails { w with faults := rest }) : wp drawFault Q E w := by
  unfold drawFault
  rw [wp_get_bind]
  cases hfaults : w.faults with
  | nil =>
    have hw : { w with faults := [] } = w := by rw [← hfaults]
    exact hw ▸ h false []
  | cons fails rest => exact h fails rest

theorem external_wp {Q : Unit → OperationWorld → Prop} (error : StreamError)
    (hQ : ∀ rest, Q () { w with faults := rest }) (hE : ∀ rest, E error { w with faults := rest }) :
    wp (external error) Q E w := by
  unfold external
  rw [wp_bind]
  refine drawFault_wp fun fails rest => ?_
  rw [wp_ensure]
  exact ⟨fun _ => hQ rest, fun _ => hE rest⟩

/-- What `finish` does to a call. -/
theorem finish_spec (w : OperationWorld) :
    wp finish (fun _ w' => w'.life = w.life.done) never w := by
  cases hpending : w.operation.operationalPending <;>
    cases hactive : w.operation.operationalActive <;>
    simp [finish, endOperationalPending, modifyOperation, modifyStats, modifyLog, wp_when,
      OperationWorld.life, OperationWorld.credit, Life.done, Life.unpended, completion,
      hpending, hactive]

structure Quiet (I : OperationWorld → Prop) : Prop where
  quiet : ∀ {w w' : OperationWorld}, I w → w'.life = w.life → I w'

namespace Quiet

variable {I : OperationWorld → Prop} (hI : Quiet I)

include hI

theorem drawFault : Ends I Operation.drawFault :=
  fun _ h => drawFault_wp fun _ _ => hI.quiet h rfl

theorem external (error : StreamError) : Keeps I (Operation.external error) :=
  fun _ h => external_wp error (fun _ => hI.quiet h rfl) fun _ => hI.quiet h rfl

theorem modifyOperation {f : Operation → Operation}
    (hlife : ∀ w : OperationWorld, { w with operation := f w.operation }.life = w.life) :
    Ends I (Operation.modifyOperation f) :=
  .modify fun w h => hI.quiet h (hlife w)

theorem insertDeadline : Keeps I Operation.insertDeadline := by
  refine .bind .get fun w => ?_
  split
  · exact .pure _
  · exact .bind .get fun _ => .bind (.when fun _ => hI.external _) fun _ =>
      (hI.modifyOperation fun _ => rfl).keeps

end Quiet

/-- Properties that recording a first outcome keeps. -/
structure Recording (I : OperationWorld → Prop) : Prop extends Quiet I where
  record : ∀ {w : OperationWorld} (outcome : Status), I w → w.operation.outcomeSet = false →
    I { w with operation := w.operation.record outcome }

namespace Recording

variable {I : OperationWorld → Prop} (hI : Recording I)

include hI

theorem setOutcome (outcome : Status) : Keeps I (Operation.setOutcome outcome) := by
  intro w h
  unfold Operation.setOutcome
  rw [wp_get_when]
  refine ⟨fun hunset => ?_, fun _ => h⟩
  rw [wp_bind]
  refine external_wp _ (fun rest => ?_) fun rest => hI.quiet h rfl
  have hdrawn : I { w with faults := rest } := hI.quiet h rfl
  exact hI.record outcome hdrawn (by simpa using hunset)

theorem trySetOutcome (outcome : Status) : Ends I (Operation.trySetOutcome outcome) :=
  .tryCatch (hI.setOutcome outcome) fun _ => .pure _

theorem setStaticOutcome (outcome : Status) : Ends I (Operation.setStaticOutcome outcome) := by
  intro w h
  unfold Operation.setStaticOutcome
  rw [wp_get_when]
  exact ⟨fun hunset => hI.record outcome h (by simpa using hunset), fun _ => h⟩

theorem decodeGrpcMessage : Ends I Operation.decodeGrpcMessage := by
  refine .bind .get fun w => ?_
  split
  · exact .pure _
  · exact .bind hI.drawFault fun _ => .pure _

theorem decodeResponse : Ends I Operation.decodeResponse :=
  .bind hI.drawFault fun _ => .bind hI.drawFault fun _ => .bind hI.drawFault fun _ =>
    .bind .get fun _ => .pure _

end Recording

/-- Properties that the intake of a response keeps, apart from its DATA. -/
structure Intake (I : OperationWorld → Prop) : Prop extends Recording I where
  tooLarge : ∀ {w : OperationWorld}, I w →
    I { w with operation := { w.operation with responseHeadersTooLarge := true } }

namespace Intake

variable {I : OperationWorld → Prop} (hI : Intake I)

include hI

theorem rejectOperationResponseHeaders : Keeps I Operation.rejectOperationResponseHeaders := by
  unfold Operation.rejectOperationResponseHeaders
  refine .bind (.modify fun w h => ?_) fun _ => .bind (hI.setStaticOutcome _).keeps fun _ =>
    .bind .get fun w => .when fun _ => .bind (hI.external _) fun _ =>
      (hI.modifyOperation fun _ => rfl).keeps
  have hreset : I { w with operation := w.operation.resetHeaderBlock .none } := hI.quiet h rfl
  exact hI.tooLarge hreset

theorem accountResponseHeader (nameLength valueLength : ℕ) :
    Keeps I (Operation.accountResponseHeader nameLength valueLength) := by
  refine .bind .get fun w => ?_
  refine .ite (fun _ => .pure _) fun _ => ?_
  split
  · exact .bind hI.rejectOperationResponseHeaders fun _ => .pure _
  · exact .bind (hI.modifyOperation fun _ => rfl).keeps fun _ => .pure _

theorem appendResponseMetadata (name value : Bytes) :
    Keeps I (Operation.appendResponseMetadata name value) := by
  refine .bind .get fun w => ?_
  split
  · exact .modify fun _ h => hI.quiet h rfl
  · exact .bind (.modify fun _ h => hI.quiet h rfl) fun _ => .throw fun _ => id
  · exact .modify fun _ h => hI.quiet h rfl

theorem processResponseMetadata (name value : Bytes) :
    Keeps I (Operation.processResponseMetadata name value) := by
  refine .bind .get fun w => .ite (fun _ => ?_) fun _ => .when fun _ =>
    (hI.modifyOperation fun _ => rfl).keeps
  split
  · exact hI.rejectOperationResponseHeaders
  · exact (hI.modifyOperation fun _ => rfl).keeps
  · exact .bind (hI.modifyOperation fun _ => rfl).keeps fun _ =>
      hI.appendResponseMetadata name value

theorem storeResponseHeader (name value : Bytes) :
    Keeps I (Operation.storeResponseHeader name value) := by
  have hfield {f : Operation → Operation}
      (hlife : ∀ w : OperationWorld, { w with operation := f w.operation }.life = w.life) :
      Keeps I (Operation.modifyOperation f) := (hI.modifyOperation hlife).keeps
  unfold Operation.storeResponseHeader
  refine .ite (fun _ => hfield fun _ => rfl) fun _ => ?_
  refine .ite (fun _ => hfield fun _ => rfl) fun _ => ?_
  refine .ite (fun _ => hfield fun _ => rfl) fun _ => ?_
  refine .ite (fun _ => .bind (hI.external _) fun _ => hfield fun _ => rfl) fun _ => ?_
  refine .ite (fun _ => ?_) fun _ => hI.processResponseMetadata name value
  split
  · exact hfield fun _ => rfl
  · exact hfield fun _ => rfl

theorem onHeader (name value : Bytes) : Keeps I (Operation.onHeader name value) :=
  .bind (hI.accountResponseHeader _ _) fun _ =>
    .ite (fun _ => hI.storeResponseHeader name value) fun _ => .pure _

theorem onInvalidHeader (nameLength valueLength : ℕ) :
    Keeps I (Operation.onInvalidHeader nameLength valueLength) :=
  .bind (hI.accountResponseHeader _ _) fun _ => .pure _

theorem onBeginHeaders (kind : HeaderKind) : Keeps I (Operation.onBeginHeaders kind) :=
  .when fun _ => (hI.modifyOperation fun _ => rfl).keeps

theorem copyMetadata (trailing : Bool) :
    ∀ entries, Keeps I (Operation.copyMetadata trailing entries)
  | [] => .pure _
  | _ :: rest => .bind (hI.external _) fun _ =>
      .bind (hI.modifyOperation fun _ => rfl).keeps fun _ => copyMetadata trailing rest

theorem finishHeaderBlock (endStream : Bool) : Keeps I (Operation.finishHeaderBlock endStream) := by
  refine .bind .get fun w => .ite (fun _ => ?_) fun _ => .bind (hI.copyMetadata _ _) fun _ => ?_
  · exact .bind (hI.modifyOperation fun _ => rfl).keeps fun _ => .pure _
  · exact .bind (hI.modifyOperation fun _ => rfl).keeps fun _ => .pure _

theorem onHeadersFrame (endStream : Bool) : Keeps I (Operation.onHeadersFrame endStream) :=
  .bind (hI.finishHeaderBlock endStream) fun _ => .bind .get fun _ => .when fun _ =>
    .bind (hI.setOutcome _) fun _ => .when fun _ => hI.external _

theorem readRequestData (outputLength : ℕ) : Keeps I (Operation.readRequestData outputLength) :=
  .modify fun _ h => hI.quiet h rfl

end Intake

/-- Properties of a call that is about to end, and what is left of them once it has. -/
structure Ending (I J : OperationWorld → Prop) : Prop extends Recording I where
  finish : ∀ {w w' : OperationWorld}, I w → w'.life = w.life.done → J w'

namespace Ending

variable {I J : OperationWorld → Prop} (h : Ending I J)

include h

theorem giveUp (code : Code) (reason : String) (hw : I w) :
    wp (Operation.giveUp code reason) (fun _ => J) never w := by
  unfold Operation.giveUp
  refine wp_seq (h.trySetOutcome _ w hw) fun _ w' hw' => ?_
  exact wp_ends (finish_spec w') fun _ _ => h.finish hw'

theorem record_finish (outcome : Status) (hw : I w) :
    wp (do trySetOutcome outcome; Operation.finish) (fun _ => J) never w := by
  refine wp_seq (h.trySetOutcome _ w hw) fun _ w' hw' => ?_
  exact wp_ends (finish_spec w') fun _ _ => h.finish hw'

theorem record_settle (outcome : Status) (hw : I w) :
    wp (do trySetOutcome outcome; settle) (fun _ => J) never w := by
  refine wp_seq (h.trySetOutcome _ w hw) fun _ w' hw' => ?_
  exact h.record_finish _ hw'

theorem finalizeStatus (grpcStatus : ℕ) (hw : I w) :
    wp (Operation.finalizeStatus grpcStatus) (fun _ => J) never w := by
  unfold Operation.finalizeStatus
  refine wp_seq (h.decodeGrpcMessage w hw) fun text w₁ hw₁ => ?_
  split
  · exact h.giveUp _ _ hw₁
  rw [wp_ite]
  refine ⟨fun _ => h.record_settle _ hw₁, fun _ => ?_⟩
  refine wp_seq (h.decodeResponse w₁ hw₁) fun decoded w₂ hw₂ => ?_
  split
  · exact h.record_finish _ hw₂
  · unfold Operation.modifyOperation
    rw [wp_modify_bind]
    exact h.record_settle _ (h.quiet hw₂ rfl)

theorem finalize (streamError : ℕ) (hw : I w) :
    wp (Operation.finalize streamError) (fun _ => J) never w := by
  unfold Operation.finalize
  rw [wp_get_bind, wp_ite]
  refine ⟨fun _ => wp_ends (finish_spec w) fun _ _ => h.finish hw, fun _ => ?_⟩
  rw [wp_ite]
  refine ⟨fun _ => h.record_finish _ hw, fun _ => ?_⟩
  split
  · exact h.record_settle _ hw
  · exact h.finalizeStatus _ hw

end Ending

/-! ## The steps of a life -/

theorem recorded_ending (l : Life) :
    Ending (fun w => l.Recorded w.life) fun w => ∃ l', l.Recorded l' ∧ w.life = l'.done where
  quiet h hlife := hlife ▸ h
  record outcome h hunset := h.then (.first outcome hunset)
  finish h hlife := ⟨_, h, hlife⟩

theorem steps_intake (l : Life) : Intake fun w => l.Steps w.life ∧ w.place = .mapped where
  quiet h hlife := ⟨hlife ▸ h.1, (congrArg Life.place hlife).trans h.2⟩
  record outcome h hunset := ⟨h.1.tail (.record h.2 (.first outcome hunset)), h.2⟩
  tooLarge h := ⟨h.1.tail (.credit h.2 .reject), h.2⟩

theorem detach_wp (hplace : w.place.kept)
    (hx : ∀ w', { w.life with place := .detached }.Recorded w'.life →
      wp x (fun _ w'' => ∃ l', { w.life with place := .detached }.Recorded l' ∧ w''.life = l'.done)
        never w') :
    wp (do detach; x) (fun _ w' => w.life.Step w'.life) never w := by
  unfold detach
  rw [wp_modify_bind]
  refine wp_imp (hx _ .same) fun _ w' h => ?_
  obtain ⟨l', hrecorded, hlife⟩ := h
  exact hlife ▸ .finish hplace hrecorded

theorem beginStop_life (reason : String) :
    wp (beginStop reason) (fun _ w' => w.life.Steps w'.life) never w := by
  unfold beginStop
  rw [wp_get_when]
  refine ⟨fun _ => ?_, fun _ => .refl⟩
  rw [wp_modify_bind, wp_get_when]
  refine ⟨fun hplace => ?_, fun _ => .refl⟩
  refine wp_imp (detach_wp hplace fun w' h => (recorded_ending _).giveUp _ _ h) fun _ _ h =>
    .single h

theorem handleTransportFailure_life (reason : String) :
    wp (handleTransportFailure reason) (fun _ w' => w.life.Steps w'.life) never w := by
  unfold handleTransportFailure
  rw [wp_get_when]
  refine ⟨fun _ => ?_, fun _ => .refl⟩
  rw [wp_ite]
  refine ⟨fun _ => beginStop_life reason, fun _ => ?_⟩
  rw [wp_modify_bind, wp_when]
  refine ⟨fun hplace => ?_, fun _ => .refl⟩
  have hplace : w.place.kept := by rw [hplace]; rfl
  exact wp_imp (detach_wp (w := { w with connection := .closing }) hplace fun w' h =>
    (recorded_ending _).giveUp _ _ h) fun _ _ h => .single h

/-- The life of a call whose callback of nghttp2 has failed. -/
def Failed (l : Life) (w : OperationWorld) : Prop :=
  l.Steps { w.life with credit := { w.credit with callbackFailed := true } }

theorem onMapped_life (hx : w.place = .mapped → wp x (fun _ w' => w.life.Steps w'.life)
      (fun _ => Failed w.life) w) :
    wp (onMapped x) (fun _ w' => w.life.Steps w'.life) never w := by
  unfold onMapped
  rw [wp_get_when]
  refine ⟨fun hplace => ?_, fun _ => .refl⟩
  rw [wp_tryCatch]
  refine wp_mono (hx hplace) (fun _ _ h => h) fun _ w' hfailed => ?_
  unfold failCallback modifyLog
  rw [wp_modify_bind]
  exact wp_imp (handleTransportFailure_life _) fun _ w'' h => hfailed.trans h

theorem onMapped_intake (hx : Keeps (fun w' => w.life.Steps w'.life ∧ w'.place = .mapped) x) :
    wp (onMapped x) (fun _ w' => w.life.Steps w'.life) never w := by
  refine onMapped_life fun hplace => wp_mono (hx w ⟨.refl, hplace⟩) (fun _ _ h => h.1)
    fun _ w' h => ?_
  have hfail : w'.credit.Step _ := .fail [] (Nat.le_refl _) (Nat.le_refl _)
  rw [List.append_nil] at hfail
  exact h.1.tail (.credit h.2 hfail)

theorem collectBody_life (l : Life) (data : Bytes) :
    Keeps (fun w => w.life = l) (collectBody data) := by
  have hquiet : Quiet fun w => w.life = l := ⟨fun h hlife => hlife.trans h⟩
  exact .bind .get fun _ => .ite (fun _ => .modify fun _ h => h) fun _ =>
    .bind (hquiet.external _) fun _ => .modify fun _ h => h

theorem onDataChunk_life (data : Bytes) (hplace : w.place = .mapped) :
    wp (onDataChunk data) (fun _ w' => w.life.Steps w'.life) (fun _ => Failed w.life) w := by
  have hle (n : ℕ) : n ≤ n + data.length := Nat.le_add_right _ _
  unfold onDataChunk modifyLog
  rw [wp_modify_bind, wp_get_bind, wp_ite]
  refine ⟨fun hrejected => ?_, fun hfits => ?_⟩
  · unfold creditConnection modifyLog
    rw [wp_bind]
    exact external_wp _ (fun _ => .single (.credit hplace (.discard data hrejected)))
      fun _ => .single (.credit hplace (.fail data (hle _) (hle _)))
  rw [wp_bind]
  refine wp_mono (collectBody_life _ data _ rfl) (fun _ w₁ hlife => ?_) fun _ w₁ hlife => ?_
  · -- what is returned of the chunk before a failure
    have hfails {connection stream : ℕ}
        (hconnection : connection ≤ w₁.credit.connectionCredit + data.length)
        (hstream : stream ≤ w₁.credit.streamCredit + data.length) :
        w.life.Steps { w₁.life with credit := { w₁.life.credit with
          connectionCredit := connection, streamCredit := stream, callbackFailed := true } } := by
      rw [show w₁.credit = w₁.life.credit from rfl, hlife] at hconnection hstream
      rw [hlife]
      exact .single (.credit hplace (.fail data hconnection hstream))
    unfold creditConnection creditStream modifyLog
    rw [wp_bind, wp_bind]
    refine external_wp _ (fun _ => ?_) fun _ => hfails (hle _) (hle _)
    rw [wp_modify, wp_bind]
    refine external_wp _ (fun _ => ?_) fun _ => hfails (Nat.le_refl _) (hle _)
    change w.life.Steps { w₁.life with credit := { w₁.life.credit with
      connectionCredit := w₁.life.credit.connectionCredit + data.length
      streamCredit := w₁.life.credit.streamCredit + data.length } }
    rw [hlife]
    exact .single (.credit hplace (.chunk data hfits))
  · change w.life.Steps { w₁.life with credit := { w₁.life.credit with callbackFailed := true } }
    rw [hlife]
    exact .single (.credit hplace (.fail data (hle _) (hle _)))

theorem endOperationalPending_wp {Q : Unit → OperationWorld → Prop}
    (h : ∀ w', w'.life = w.life.unpended → Q () w') : wp endOperationalPending Q E w := by
  unfold endOperationalPending modifyOperation modifyStats
  rw [wp_get_when]
  refine ⟨fun hpending => ?_, fun hnot => ?_⟩
  · rw [wp_modify_bind, wp_modify]
    exact h _ (by simp [OperationWorld.life, OperationWorld.credit, Life.unpended, hpending])
  · refine h w ?_
    simp [OperationWorld.life, Life.unpended, hnot]

theorem startOperation_life (now id : ℕ) (hplace : w.place = .waiting) :
    wp (startOperation now id) (fun _ w' => w.life.Step w'.life) never w := by
  have hwaits : w.life.place.kept := by
    show w.place.kept
    rw [hplace]
    rfl
  unfold startOperation modifyOperation
  rw [wp_modify_bind, wp_get_bind, wp_ite]
  refine ⟨fun _ => ?_, fun _ => ?_⟩
  · rw [wp_modify_bind]
    refine wp_imp ((recorded_ending { w.life with place := .detached }).giveUp _ _ .same)
      fun _ w' h => ?_
    obtain ⟨l', hrecorded, hlife⟩ := h
    exact hlife ▸ .finish hwaits hrecorded
  rw [wp_modify_bind, wp_bind]
  refine endOperationalPending_wp fun w₁ hlife₁ => ?_
  have hlife₁ : w₁.life = { w.life with place := .detached }.unpended := hlife₁
  unfold submitOperation
  rw [wp_tryCatch, wp_bind]
  have hfails : ∀ w₂ : OperationWorld, w₂.life = w₁.life →
      wp (do modifyOperation (fun op => { op with deadlineEntry := none })
             giveUp .unavailable "request submission failed")
        (fun _ w' => w.life.Step w'.life) never w₂ := by
    intro w₂ hlife₂
    unfold modifyOperation
    rw [wp_modify_bind]
    have hstart : ({ w.life with place := .detached } : Life).unpended.Recorded w₂.life := by
      rw [hlife₂, hlife₁]
      exact .same
    refine wp_imp ((recorded_ending _).giveUp _ _ hstart) fun _ w' h => ?_
    obtain ⟨l', hrecorded, hlife⟩ := h
    obtain ⟨l'', hrecorded', hdone⟩ := hrecorded.of_unpended
    exact hlife ▸ hdone ▸ .finish hwaits hrecorded'
  refine external_wp _ (fun _ => ?_) fun _ => hfails _ rfl
  rw [wp_bind]
  refine external_wp _ (fun _ => ?_) fun _ => hfails _ rfl
  rw [wp_modify]
  show w.life.Step { w₁.life with place := .mapped }
  exact hlife₁ ▸ .submit hplace

theorem appendWaitingOperation_life (hplace : w.place = .pending) :
    wp appendWaitingOperation (fun _ w' => w.life.Step w'.life) never w := by
  have hqueued : Keeps (fun w' => w'.life = { w.life with place := .waiting }) insertDeadline :=
    Quiet.insertDeadline ⟨fun h hlife => hlife.trans h⟩
  unfold appendWaitingOperation
  rw [wp_modify_bind, wp_tryCatch]
  refine wp_mono (hqueued _ rfl) (fun _ w' h => ?_) fun _ w' h => ?_
  · exact h ▸ .queue hplace
  rw [wp_modify_bind]
  have hstart : { w.life with place := .detached }.Recorded
      ({ w' with place := .detached } : OperationWorld).life := by
    have hlife : ({ w' with place := .detached } : OperationWorld).life =
        { w'.life with place := .detached } := rfl
    rw [hlife, h]
    exact .same
  refine wp_imp ((recorded_ending _).giveUp _ _ hstart) fun _ w'' h => ?_
  obtain ⟨l', hrecorded, hlife⟩ := h
  refine hlife ▸ .finish ?_ hrecorded
  show w.place.kept
  rw [hplace]
  rfl

theorem processPending_life (now id : ℕ) :
    wp (processPending now id) (fun _ w' => w.life.Steps w'.life) never w := by
  have hstart : ∀ w' : OperationWorld, w.life.Steps w'.life →
      wp (do let w ← get
             when (w.connection = .active ∧ w.place = .waiting) (startOperation now id))
        (fun _ w' => w.life.Steps w'.life) never w' := by
    intro w' hsteps
    rw [wp_get_when]
    refine ⟨fun hturn => ?_, fun _ => hsteps⟩
    exact wp_imp (startOperation_life now id hturn.2) fun _ _ h => hsteps.tail h
  unfold processPending
  rw [wp_get_bind, wp_bind, wp_when]
  refine ⟨fun hplace => ?_, fun _ => hstart w .refl⟩
  exact wp_imp (appendWaitingOperation_life hplace) fun _ w' h => hstart w' (.single h)

/-- A waiting call whose deadline has passed ends; a submitted one records its outcome. -/
theorem expireDeadlines_life (now : ℕ) :
    wp (expireDeadlines now) (fun _ w' => w.life.Steps w'.life) (fun _ w' => w.life.Steps w'.life)
      w := by
  unfold expireDeadlines modifyOperation
  rw [wp_get_bind]
  split
  · exact .refl
  rw [wp_when]
  refine ⟨fun _ => ?_, fun _ => .refl⟩
  rw [wp_modify_bind, wp_get_when]
  refine ⟨fun _ => ?_, fun _ => .refl⟩
  rw [wp_ite]
  refine ⟨fun hplace => ?_, fun _ => ?_⟩
  · rw [wp_modify_bind, wp_modify_bind]
    refine wp_ends ((recorded_ending { w.life with place := .detached }).giveUp _ _ .same)
      fun _ w' h => ?_
    obtain ⟨l', hrecorded, hlife⟩ := h
    refine .single (hlife ▸ .finish ?_ hrecorded)
    show w.place.kept
    rw [show w.place = .waiting from hplace]
    rfl
  rw [wp_when]
  refine ⟨fun hplace => ?_, fun _ => .refl⟩
  rw [wp_modify_bind]
  refine wp_ends_seq ((steps_intake w.life).trySetOutcome _ _ ⟨.refl, hplace⟩) fun _ w' h => ?_
  exact external_wp _ (fun _ => h.1) fun _ => h.1

/-- The failure of a candidate touches no call, unless it stops the channel. -/
theorem failConnectionCandidate_life (reason : String) :
    wp (failConnectionCandidate reason) (fun _ w' => w.life.Steps w'.life) never w := by
  unfold failConnectionCandidate
  rw [wp_get_when]
  refine ⟨fun _ => ?_, fun _ => .refl⟩
  rw [wp_ite]
  exact ⟨fun _ => beginStop_life reason, fun _ => .refl⟩

theorem step_life (w : OperationWorld) (event : Event) : w.life.Steps (step w event).life := by
  have hmapped {x : OperationM Unit}
      (hx : Keeps (fun w' => w.life.Steps w'.life ∧ w'.place = .mapped) x) :
      wp (onMapped x) (fun _ w' => w.life.Steps w'.life) (fun _ w' => w.life.Steps w'.life) w :=
    wp_ends (onMapped_intake hx) fun _ _ h => h
  have hI := steps_intake w.life
  refine exec_of_wp (I := fun w' : OperationWorld => w.life.Steps w'.life) ?_
  cases event with
  | process now id => exact wp_ends (processPending_life now id) fun _ _ h => h
  | read outputLength => exact hmapped (hI.readRequestData outputLength)
  | beginHeaders kind => exact hmapped (hI.onBeginHeaders kind)
  | header name value => exact hmapped (hI.onHeader name value)
  | invalidHeader nameLength valueLength =>
    exact hmapped (hI.onInvalidHeader nameLength valueLength)
  | headersFrame endStream => exact hmapped (hI.onHeadersFrame endStream)
  | data bytes =>
    exact wp_ends (onMapped_life fun hplace => onDataChunk_life bytes hplace) fun _ _ h => h
  | streamClose errorCode =>
    refine wp_ends (onMapped_life fun hplace => ?_) fun _ _ h => h
    have hkept : w.place.kept := by rw [hplace]; rfl
    exact wp_ends (detach_wp hkept fun w' h => (recorded_ending _).finalize errorCode h)
      fun _ _ h => .single h
  | expire now =>
    unfold handleEvent
    rw [wp_tryCatch]
    refine wp_mono (expireDeadlines_life now) (fun _ _ h => h) fun _ w' h => ?_
    exact wp_ends (beginStop_life _) fun _ _ h' => h.trans h'
  | goAway =>
    unfold handleEvent onGoAway
    rw [wp_get_when]
    exact ⟨fun _ => .refl, fun _ => .refl⟩
  | transportFailure reason => exact wp_ends (handleTransportFailure_life reason) fun _ _ h => h
  | stop reason => exact wp_ends (beginStop_life reason) fun _ _ h => h
  | connection =>
    unfold handleEvent changeConnection
    rw [wp_get_when]
    exact ⟨fun _ => .refl, fun _ => .refl⟩
  | candidateFailed reason => exact wp_ends (failConnectionCandidate_life reason) fun _ _ h => h
  | overwrite =>
    unfold handleEvent overwriteEntry
    rw [wp_get_when]
    exact ⟨fun hentry => .single (.lose hentry.1), fun _ => .refl⟩

theorem final_life (w : OperationWorld) (events : List Event) :
    w.life.Steps (Run.final step w events).life :=
  Run.invariant_always (I := fun w' : OperationWorld => w.life.Steps w'.life)
    (fun w' event h => h.trans (step_life w' event)) events .refl

theorem life_invariant {P : Life → Prop} (hstep : ∀ {l l' : Life}, P l → l.Step l' → P l')
    (events : List Event) (h : P w.life) : P (Run.final step w events).life := by
  have hrun : ∀ {l : Life}, w.life.Steps l → P l := by
    intro l hsteps
    induction hsteps with
    | refl => exact h
    | tail _ hlast ih => exact hstep ih hlast
  exact hrun (final_life w events)

end Operation

theorem OperationWorld.IsEnqueued.sound {w : OperationWorld} (hw : w.IsEnqueued) :
    w.life.Sound := by
  have hop := hw.operation
  refine ⟨?_, ?_, ?_, ?_⟩
  all_goals
    simp only [OperationWorld.life, hw.place, hw.log]
    rw [hop]
    simp

end GrpcLite.Client
