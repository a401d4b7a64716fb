import GrpcLite.Client.Steps
import GrpcLite.Client.OperationSteps

/-!
# The recorded outcome of a call

A call records the first outcome that the client itself gives it.  A unary call reports it whatever
happens later.  So does a stream, unless the connection ends in between: `handleTransportFailure`
and `beginStop` report their own.
-/

namespace GrpcLite.Client

open Prog

variable {w w' : World}

/-- Every reported outcome is in the relation `R` to the recorded outcome and to those that the end
of the connection found. -/
def World.Reports (R : Outcome → Option Status → List (Option Status) → Prop) (w : World) : Prop :=
  ∀ outcome trailing, .callback (.terminal outcome trailing) ∈ w.log.marks →
    R outcome w.stream.forcedStatus w.log.sweeps

section Reports

variable {R : Outcome → Option Status → List (Option Status) → Prop}

theorem AppMove.terminalMark {outcome : Outcome} {trailing : List Entry} (hmove : AppMove w w')
    (hmem : .callback (.terminal outcome trailing) ∈ w'.log.marks) :
    .callback (.terminal outcome trailing) ∈ w.log.marks := by
  cases hmove with
  | release =>
    rcases List.mem_append.mp hmem with hmem | hmem
    · exact hmem
    · rcases mem_ownerMarks hmem with heq | heq <;> cases heq
  | _ => exact hmem

theorem AppMove.sweeps (hmove : AppMove w w') : w'.log.sweeps = w.log.sweeps := by
  cases hmove <;> rfl

theorem AppMoves.sweeps (happ : AppMoves w w') : w'.log.sweeps = w.log.sweeps :=
  AppClosed.moves (I := fun w' => w'.log.sweeps = w.log.sweeps)
    (fun _ _ hmove h => hmove.sweeps.trans h) happ rfl

theorem World.Reports.app (h : w.Reports R) (hmove : AppMove w w') : w'.Reports R := by
  intro outcome trailing hmem
  have hforced : w'.stream.forcedStatus = w.stream.forcedStatus :=
    congrArg Control.forced hmove.control
  rw [hmove.sweeps, hforced]
  exact h outcome trailing (hmove.terminalMark hmem)

theorem AppMoves.reports (happ : AppMoves w w') (h : w.Reports R) : w'.Reports R :=
  AppClosed.moves (fun _ _ hmove h => World.Reports.app h hmove) happ h

theorem World.Reports.marked (h : w.Reports R) {event : Mark} (hevent : event.isTerminal = false) :
    (w.marked event).Reports R := by
  intro outcome trailing hmem
  rcases List.mem_append.mp hmem with hmem | hmem
  · exact h outcome trailing hmem
  · obtain rfl := List.mem_singleton.mp hmem
    exact Bool.noConfusion hevent

theorem World.Reports.unreported (h : ∀ event ∈ w.log.marks, event.isTerminal = false) :
    w.Reports R :=
  fun _ _ hmem => absurd (h _ hmem) nofun

structure Reporting (R : Outcome → Option Status → List (Option Status) → Prop) : Prop where
  swept : ∀ {outcome forced sweeps recorded}, R outcome forced sweeps →
    R outcome forced (sweeps ++ [recorded])
  report : ∀ {w : World} {outcome : Outcome}, w.Agrees outcome →
    (outcome.status.code = .ok → outcome.fromTrailers) → (outcome.fromTrailers → w.Drained) →
    R outcome w.stream.forcedStatus w.log.sweeps

theorem Move.reports (hR : Reporting R) (hmove : Move w w') (hbase : w.Base) (h : w.Reports R) :
    w'.Reports R := by
  cases hmove with
  | app hmove => exact h.app hmove
  | swept => exact fun outcome trailing hmem => hR.swept (h outcome trailing hmem)
  | notice kind hkind =>
    refine h.marked ?_
    cases kind <;> first | rfl | cases hkind
  | terminate hlive happ => exact happ.reports h
  | @terminateCall w₁ outcome hlive happ howned hunreleased hagrees hok hdrained =>
    have hforced : w₁.stream.forcedStatus = w.stream.forcedStatus :=
      congrArg Control.forced happ.control
    have hnew : R outcome w₁.stream.forcedStatus w₁.log.sweeps := by
      rw [happ.sweeps, hforced]
      exact hR.report hagrees hok hdrained
    intro other trailing hmem
    rcases List.mem_append.mp hmem with hmem | hmem
    · exact happ.reports h other trailing hmem
    · cases List.mem_singleton.mp hmem
      exact hnew
  | loopRelease =>
    intro outcome trailing hmem
    rcases List.mem_append.mp hmem with hmem | hmem
    · exact h outcome trailing hmem
    · rcases mem_ownerMarks hmem with heq | heq <;> cases heq
  | close errorCode hmapped happ forced expired hforced =>
    rcases hforced with rfl | ⟨_, hlive, _⟩
    · intro outcome trailing hmem
      have hsame : _ = w.stream.forcedStatus := congrArg Control.forced happ.control
      show R outcome w.stream.forcedStatus _
      rw [← hsame]
      exact happ.reports h outcome trailing hmem
    · have hclosed := AppClosed.moves (fun _ _ hmove h => AppMove.base hmove h) happ { hbase with }
      have hterminal := (congrArg Control.terminal happ.control).trans hlive
      exact World.Reports.unreported (hclosed.unended hterminal)
  | force status hcode hlive =>
    cases hrecorded : w.stream.forcedStatus with
    | some =>
      intro outcome trailing hmem
      have hsame : (w.stream.setForcedStreamStatus status).forcedStatus =
          w.stream.forcedStatus := by
        simp [ClientStreamState.setForcedStreamStatus, hrecorded]
      show R outcome (w.stream.setForcedStreamStatus status).forcedStatus _
      rw [hsame]
      exact h outcome trailing hmem
    | none =>
      exact World.Reports.unreported (hbase.unended (hlive.resolve_right (by simp [hrecorded])))
  | _ => exact h

theorem Reporting.invariant (hR : Reporting R) : Invariant (World.Reports R) where
  awake h := h
  move hmove hbase h := by
    cases hmove with
    | outer hmove => exact hmove.reports hR hbase h
    | message => exact h.marked rfl
    | flow => exact h

theorem Reporting.run (hR : Reporting R) (hw : w.IsOpened) (events : List Event) :
    (Run.final step w events).Reports R :=
  hR.invariant.run hw.stable events fun _ _ hmem => absurd (hw.log ▸ hmem :) List.not_mem_nil

end Reports

/-- The reported status is the recorded one, or a recorded one was overridden. -/
def Faithful (outcome : Outcome) (recorded : Option Status) (sweeps : List (Option Status)) :
    Prop :=
  ∀ forced, recorded = some forced → some forced ∈ sweeps ∨ outcome.status = forced

theorem faithful_reporting : Reporting Faithful where
  swept h forced hforced := (h forced hforced).imp_left (List.mem_append_left _)
  report hagrees _ _ forced hforced :=
    hagrees.symm.imp (fun hswept => hforced ▸ hswept) fun hsame => hsame forced hforced

theorem recorded_invariant (forced : Status) :
    Invariant fun w => w.stream.forcedStatus = some forced where
  awake h := h
  move hmove _ h := by
    cases hmove with
    | outer hmove =>
      cases hmove with
      | app hmove => exact (congrArg Control.forced hmove.control).trans h
      | terminate _ happ | terminateCall _ _ happ =>
        exact (congrArg Control.forced happ.control).trans h
      | close errorCode hmapped happ first expired hrecords =>
        rcases hrecords with rfl | ⟨hnone, _⟩
        · exact h
        · cases hnone.symm.trans h
      | force => simp [ClientStreamState.setForcedStreamStatus, h]
      | _ => exact h
    | _ => exact h

/-- The status that is reported is the one that was recorded first, in every run in which the end of
the connection finds no recorded one. -/
theorem stream_outcome (hw : w.IsOpened) (before after : List Event)
    (hsweeps : ∀ recorded ∈ (Run.final step w (before ++ after)).log.sweeps, recorded = none)
    {forced : Status} (hforced : (Run.final step w before).stream.forcedStatus = some forced) :
    ∀ outcome trailing, .callback (.terminal outcome trailing) ∈
      (Run.final step w (before ++ after)).log.marks → outcome.status = forced := by
  have hstable : (Run.final step w before).Stable :=
    Run.invariant_always (fun _ event h => h.step event) before hw.stable
  have hkept : (Run.final step w (before ++ after)).stream.forcedStatus = some forced := by
    rw [Run.final_append]
    exact (recorded_invariant forced).run hstable after hforced
  intro outcome trailing hmem
  have hreported := faithful_reporting.run hw (before ++ after) outcome trailing hmem
  rcases hreported forced hkept with hswept | hsame
  · exact absurd (hsweeps _ hswept) nofun
  · exact hsame

theorem operation_outcome {w : OperationWorld} (hw : w.IsEnqueued)
    (before after : List Operation.Event)
    (hset : (Run.final Operation.step w before).operation.outcomeSet) :
    ∀ completion ∈ (Run.final Operation.step w (before ++ after)).log.completions,
      completion.status = ⟨(Run.final Operation.step w before).operation.responseCode,
        (Run.final Operation.step w before).operation.responseMessage⟩ := by
  have hsound : (Run.final Operation.step w before).life.Sound :=
    Operation.life_invariant Life.Sound.step before hw.sound
  have hsettled := Operation.life_invariant (P := Life.Settled _) Life.Settled.step after
    ⟨hsound, hset, rfl⟩
  rw [← Run.final_append] at hsettled
  intro completion hmem
  have hreported : completion.status ∈
      (Run.final Operation.step w (before ++ after)).life.reported :=
    List.mem_map_of_mem hmem
  rw [hsettled.reported] at hreported
  split at hreported
  · exact (List.mem_singleton.mp hreported).trans hsettled.status_eq
  · cases hreported

/-- The first local outcome wins, for every unary call and for every stream on which the end of the
connection finds no recorded outcome. -/
theorem first_local_outcome_wins (u : OperationWorld) (w : World) :
    (∀ before after : List Operation.Event, u.IsEnqueued →
      (Run.final Operation.step u before).operation.outcomeSet →
      ∀ completion ∈ (Run.final Operation.step u (before ++ after)).log.completions,
        completion.status.code = (Run.final Operation.step u before).operation.responseCode) ∧
    ∀ (before after : List Event) (forced : Status), w.IsOpened →
      (Run.final step w before).stream.forcedStatus = some forced →
      (∀ recorded ∈ (Run.final step w (before ++ after)).log.sweeps, recorded = none) →
      ∀ outcome trailing, .callback (.terminal outcome trailing) ∈
        (Run.final step w (before ++ after)).log.marks → outcome.status.code = forced.code := by
  refine ⟨fun before after hu hset completion hmem => ?_,
    fun before after forced hw hforced hsweeps outcome trailing hmem => ?_⟩
  · rw [operation_outcome hu before after hset completion hmem]
  · rw [stream_outcome hw before after hsweeps hforced outcome trailing hmem]

def sampleOperation : OperationWorld :=
  { operation := { maxResponseSize := 100, deadline := some 10 }
    gzip := ⟨id, fun payload _ => .ok payload⟩ }

def sampleStream : World :=
  { stream := .init {} {} .identity none, gzip := ⟨id, fun payload _ => .ok payload⟩ }

theorem sampleOperation_enqueued : sampleOperation.IsEnqueued := ⟨rfl, rfl, rfl, rfl⟩

theorem sampleStream_opened : sampleStream.IsOpened := ⟨rfl, rfl, rfl, rfl, rfl, rfl, rfl⟩

def expiredCompletion : Completion :=
  ⟨.init .deadlineExceeded "deadline exceeded", [], .identity, [], []⟩

/-- The deadline of a submitted call passes before the connection fails, and a stream is cancelled
before its reset closes it. -/
theorem first_local_outcome_wins_sample :
    expiredCompletion.status.code = (Run.final Operation.step sampleOperation
      [.process 0 1, .expire 10]).operation.responseCode ∧
    (⟨cancelStatus, false⟩ : Outcome).status.code = cancelStatus.code :=
  ⟨(first_local_outcome_wins sampleOperation sampleStream).1 [.process 0 1, .expire 10]
      [.transportFailure "connection failed"] sampleOperation_enqueued (by decide +kernel)
      expiredCompletion (by decide +kernel),
    (first_local_outcome_wins sampleOperation sampleStream).2 [.wake 0 1, .app .cancel, .wake 0 1]
      [.streamClose cancelCode 0] cancelStatus sampleStream_opened (by decide +kernel)
      (by decide +kernel) ⟨cancelStatus, false⟩ [] (by decide +kernel)⟩

/-- The application cancels, the reset is submitted, and the connection fails before it is sent:
the stream reports UNAVAILABLE. -/
theorem cancelled_stream_reports_unavailable :
    (Run.final step sampleStream [.wake 0 1, .app .cancel, .wake 0 1]).stream.forcedStatus =
      some cancelStatus ∧
    .callback (.terminal ⟨.init .unavailable "connection failed", false⟩ []) ∈
      (Run.final step sampleStream
        [.wake 0 1, .app .cancel, .wake 0 1, .transportFailure "connection failed"]).log.marks := by
  decide +kernel

theorem Operation.stop_detaches {w : OperationWorld} (hrunning : w.stopping = false)
    (hkept : w.place.kept ∨ w.place = .detached) (reason : String) :
    (Operation.step w (.stop reason)).place = .detached := by
  refine exec_of_wp (I := fun w' : OperationWorld => w'.place = .detached) ?_
  unfold handleEvent beginStop detach
  rw [wp_get_when, wp_modify_bind, wp_get_when, wp_modify_bind]
  refine ⟨fun _ => ⟨fun _ => ?_, hkept.resolve_left⟩, fun hstopped => ?_⟩
  · refine wp_ends ((recorded_ending { w.life with place := .detached }).giveUp _ _ .same) ?_
    rintro _ w' ⟨l, hrecorded, hlife⟩
    have hplace : w'.place = l.place := congrArg Life.place hlife
    exact hplace.trans hrecorded.place
  · exact absurd (by simp [hrunning]) hstopped

/-- A call that was lost stays as it is. -/
theorem Life.Step.not_lost {l l' : Life} (hstep : l.Step l') : l.place ≠ .lost := by
  intro hlost
  cases hstep with
  | queue hplace | submit hplace | record hplace | lose hplace | credit hplace =>
    rw [hlost] at hplace
    cases hplace
  | finish hplace =>
    rw [hlost] at hplace
    cases hplace

/-- A unary call is completed once, with the outcome it has recorded, when it has left the tables of
the channel, which is at the latest when the channel stops; the gauges count it as active until
then and as pending until it is submitted.  A call whose entry was overwritten is never
completed. -/
theorem operation_completed_once {w : OperationWorld} (hw : w.IsEnqueued)
    (events : List Operation.Event) :
    let w' := Run.final Operation.step w events
    w'.log.completions.map (·.status) = (if w'.place = .detached then
      [⟨w'.operation.responseCode, w'.operation.responseMessage⟩] else []) ∧
    (w'.operation.operationalActive ↔ w'.place ≠ .detached) ∧
    (w'.operation.operationalPending ↔ w'.place = .pending ∨ w'.place = .waiting) ∧
    (w'.stopping = false → w'.place ≠ .lost → ∀ reason,
      (Operation.step w' (.stop reason)).log.completions.length = 1) ∧
    (w'.place = .lost → ∀ more, (Run.final Operation.step w' more).log.completions = []) := by
  intro w'
  have hsound : w'.life.Sound := Operation.life_invariant Life.Sound.step events hw.sound
  have hreported : ∀ {l : Life}, l.Sound →
      l.reported = if l.place = .detached then [l.status] else [] := fun h => by
    simp only [h.reported, h.finished]
  refine ⟨hreported hsound, ?_, hsound.pending, fun hrunning hkept reason => ?_,
    fun hlost more => ?_⟩
  · change w'.life.active = true ↔ ¬w'.life.place = .detached
    rw [hsound.active, ← hsound.finished, Bool.not_eq_true', Bool.not_eq_true]
  · have hplace : w'.place.kept ∨ w'.place = .detached := by
      revert hkept
      cases w'.place with
      | lost => exact fun hkept => absurd rfl hkept
      | detached => exact fun _ => .inr rfl
      | pending | waiting | mapped => exact fun _ => .inl rfl
    have hstopped :=
      (hreported (Operation.life_invariant Life.Sound.step [.stop reason] hsound)).trans
        (if_pos (Operation.stop_detaches hrunning hplace reason))
    simpa [OperationWorld.life] using congrArg List.length hstopped
  · have hnone : w'.life.reported = [] := (hreported hsound).trans (if_neg (by
      rw [show w'.life.place = .lost from hlost]; decide))
    have hsame := Operation.life_invariant (P := fun l => l.place = .lost ∧ l.reported = [])
      (fun h hstep => absurd h.1 hstep.not_lost) more ⟨hlost, hnone⟩
    simpa [OperationWorld.life] using hsame.2

/-- A call over TLS whose server sends bad plaintext with the end of the handshake, before the next
session gives its stream id to another call. -/
def overwritten : List Operation.Event :=
  [.process 0 1, .candidateFailed "TLS handshake failed", .connection .active, .overwrite]

def tlsOperation : OperationWorld :=
  { sampleOperation with tls := true, reconnect := some true }

theorem operation_completed_once_expired :
    (Run.final Operation.step sampleOperation [.process 0 1, .expire 10]).place = .mapped ∧
      (Operation.step (Run.final Operation.step sampleOperation [.process 0 1, .expire 10])
        (.stop "closed")).log.completions.length = 1 ∧
      (Run.final Operation.step tlsOperation overwritten).place = .lost ∧
      (Run.final Operation.step (Run.final Operation.step tlsOperation overwritten)
        [.expire 10, .stop "closed"]).log.completions = [] := by
  have h := operation_completed_once sampleOperation_enqueued [.process 0 1, .expire 10]
  have hlost : (Run.final Operation.step tlsOperation overwritten).place = .lost := by
    decide +kernel
  exact ⟨by decide +kernel, h.2.2.2.1 (by decide +kernel) (by decide +kernel) _, hlost,
    (operation_completed_once (w := tlsOperation) ⟨rfl, rfl, rfl, rfl⟩ overwritten).2.2.2.2 hlost _⟩

end GrpcLite.Client
