import GrpcLite.Channel.Admission

/-!
# The operational accounting of a channel

Over every interleaving the accounting follows the RPCs: each accepted one is active or counted
under the status it ended with, the gauges are what the RPCs hold, and the high-water marks only
rise.
-/

namespace GrpcLite.Channel

open Client (Gauge OperationalStats)

/-! ## High-water marks -/

inductive Mark where
  | pendingUnaryCalls
  | streamInboundBytes
  | streamOutboundBytes
  | socketWriteBytes
  deriving DecidableEq, Repr

def highWater (stats : OperationalStats) : Mark → ℕ
  | .pendingUnaryCalls => stats.pendingUnaryCallsHighWater
  | .streamInboundBytes => stats.streamInboundBytesHighWater
  | .streamOutboundBytes => stats.streamOutboundBytesHighWater
  | .socketWriteBytes => stats.socketWriteBytesHighWater

def Rises (stats stats' : OperationalStats) : Prop :=
  ∀ mark, highWater stats mark ≤ highWater stats' mark

namespace Rises

variable {stats stats' stats'' : OperationalStats}

theorem refl (stats : OperationalStats) : Rises stats stats := fun _ => le_rfl

theorem trans (h : Rises stats stats') (h' : Rises stats' stats'') : Rises stats stats'' :=
  fun mark => (h mark).trans (h' mark)

theorem of_eq (h : ∀ mark, highWater stats' mark = highWater stats mark) : Rises stats stats' :=
  fun mark => (h mark).ge

theorem setGauge (stats : OperationalStats) (value : ℕ) (g : Gauge) :
    Rises stats (stats.setGauge value g) :=
  of_eq fun mark => by cases g <;> cases mark <;> rfl

theorem raise (stats : OperationalStats) (g : Gauge) : Rises stats (stats.raise g) := by
  intro mark
  cases g <;> cases mark <;> simp [OperationalStats.raise, highWater]

theorem count (stats : OperationalStats) (code : Code) : Rises stats (stats.count code) :=
  of_eq fun mark => by cases code <;> cases mark <;> rfl

theorem panic (stats : OperationalStats) : Rises stats { stats with panicked := true } :=
  of_eq fun mark => by cases mark <;> rfl

theorem add (stats : OperationalStats) (g : Gauge) (amount : ℕ) :
    Rises stats (stats.add g amount) := by
  unfold OperationalStats.add
  split
  · exact panic stats
  · exact (setGauge stats _ g).trans (raise _ g)

theorem subtract (stats : OperationalStats) (g : Gauge) (amount : ℕ) :
    Rises stats (stats.subtract g amount) := by
  unfold OperationalStats.subtract
  split
  · exact panic stats
  · exact setGauge stats _ g

theorem terminal (stats : OperationalStats) (g : Gauge) (code : Code) :
    Rises stats (stats.terminal g code) := by
  unfold OperationalStats.terminal
  split
  · exact panic stats
  · exact (setGauge stats _ g).trans (count _ code)

theorem setSocketBytes (stats : OperationalStats) (bytes : ℕ) :
    Rises stats (stats.setSocketBytes bytes) := by
  intro mark
  cases mark <;> simp [OperationalStats.setSocketBytes, highWater]

end Rises

section Steps

variable (s : Shared)

theorem Unary.endOperationalPending_rises (op : Unary) :
    Rises s.stats (op.endOperationalPending s).1.stats := by
  unfold endOperationalPending
  split
  · exact .subtract _ _ _
  · exact .refl _

theorem Unary.finish_rises (op : Unary) (code : Code) :
    Rises s.stats (op.finish code s).1.stats := by
  refine (endOperationalPending_rises s { op with finished := true }).trans ?_
  simp only [finish]
  unfold endOperationalActive
  split
  · exact .terminal _ _ _
  · exact .refl _

theorem Unary.Acts.rises {op : Unary} {x : Shared × Unary} (h : op.Acts s x) :
    Rises s.stats x.1.stats := by
  cases h with
  | same | build | deinit => exact .refl _
  | finish code => exact finish_rises s op code
  | accept => exact (Rises.add _ _ _).trans (.add _ _ _)
  | startSubmission => exact endOperationalPending_rises s op

theorem Stream.Acts.rises {st : Stream} {x : Shared × Stream} (h : st.Acts s x) :
    Rises s.stats x.1.stats := by
  cases h with
  | same | create | build | offset | release => exact .refl _
  | accept | send | queue => exact .add _ _ _
  | sent | deliver => exact .subtract _ _ _
  | terminalize => exact .terminal _ _ _
  | destroy => exact (Rises.subtract _ _ _).trans (.subtract _ _ _)

theorem act_rises (member : Member) (action : Action) (hsound : member.Sound) :
    Rises s.stats (act s member action).1.stats := by
  unfold act
  split
  · exact (Unary.acts s _ _).rises
  · exact (Stream.Sound.acts hsound _).rises
  · exact .setSocketBytes _ _
  · exact .refl _
  · exact .refl _

theorem enter_stats (call : Call) : (enter s call).1.stats = s.stats := by
  rw [enter_eq]
  split
  · rfl
  · split <;> cases call <;> rfl

theorem step_rises {calls : Calls} (hsound : ∀ member ∈ calls.members, member.Sound)
    (event : Pool.Event Call Action) :
    Rises calls.shared.stats (step calls event).shared.stats := by
  cases event with
  | join call =>
    change Rises calls.shared.stats (enter calls.shared call).1.stats
    rw [enter_stats]
    exact .refl _
  | act i action =>
    simp only [step, Pool.step]
    split
    · exact .refl _
    · exact act_rises calls.shared _ action (hsound _ (List.mem_of_getElem? ‹_›))

end Steps

/-! ## Gauges and counters -/

namespace Member

def isAccepted : Member → Bool
  | .channel _ => false
  | .unary op => op.accepted
  | .stream st => st.accepted

/-- An accepted call that is neither submitted nor finished. -/
def isPending : Member → Bool
  | .unary op => op.accepted && !op.submitted && !op.finished
  | _ => false

/-- The buffered bytes of a stream state that is not destroyed. -/
def inboundBuffered : Member → ℕ
  | .stream st => if st.stage = .freed then 0 else st.inboundBuffered
  | _ => 0

def outboundBuffered : Member → ℕ
  | .stream st => if st.stage = .freed then 0 else st.outboundBuffered
  | _ => 0

def rpcs : Share →+ ℕ where
  toFun n := n (.gauge .activeUnaryCalls) + n (.gauge .activeStreams) + (n (.ended .ok) +
    n (.ended .cancelled) + n (.ended .deadlineExceeded) + n (.ended .other))
  map_zero' := rfl
  map_add' n n' := by
    simp only [Pi.add_apply]
    omega

theorem rpcs_apply (n : Share) : rpcs n = n (.gauge .activeUnaryCalls) +
    n (.gauge .activeStreams) + (n (.ended .ok) + n (.ended .cancelled) +
      n (.ended .deadlineExceeded) + n (.ended .other)) := rfl

theorem ended_eq (counted : Option Code) :
    (if counted.map Bucket.of = some .ok then 1 else 0) +
      (if counted.map Bucket.of = some .cancelled then 1 else 0) +
        (if counted.map Bucket.of = some .deadlineExceeded then 1 else 0) +
          (if counted.map Bucket.of = some .other then 1 else 0) = counted.isSome.toNat := by
  cases counted with
  | none => rfl
  | some code => cases hbucket : Bucket.of code <;> simp [hbucket]

variable {member : Member}

variable (hsound : member.Sound)

include hsound

theorem Sound.rpcs_eq :
    rpcs member.share = if member.isAccepted then 1 else 0 := by
  cases member with
  | channel => simp [rpcs_apply, share, isAccepted]
  | unary op =>
    have hop : op.Sound := hsound
    simp only [rpcs_apply, share, Unary.share_apply, ended_eq, hop.active, hop.counted, isAccepted]
    by_cases hlive : op.stage = .live
    · simp [hlive, hop.live hlive]
    · obtain haccepted | haccepted := Bool.eq_false_or_eq_true op.accepted <;>
        simp [hlive, haccepted]
  | stream st =>
    have hst : st.Sound := hsound
    simp only [rpcs_apply, share, Stream.share_apply, ended_eq, hst.active, hst.counted, isAccepted]
    by_cases haccepted : st.accepted = true
    · by_cases hlive : st.stage = .live
      · obtain hterminal | hterminal := Bool.eq_false_or_eq_true st.terminal <;>
          simp [haccepted, hlive, hterminal]
      · have hfreed : st.stage = .freed := by simpa [hlive] using hst.early haccepted
        simp [haccepted, hfreed, hst.terminal hfreed haccepted]
    · have hlive : st.stage ≠ .live := fun hlive => haccepted (hst.accepted hlive)
      simp [haccepted, hlive]

theorem Sound.pending_eq :
    member.share (.gauge .pendingUnaryCalls) = if member.isPending then 1 else 0 := by
  cases member with
  | channel | stream => simp [share, isPending]
  | unary op =>
    have hop : op.Sound := hsound
    simp only [share, Unary.share_apply, hop.pending, isPending]
    by_cases hlive : op.stage = .live
    · have hunfinished : op.finished = false := by simpa [hlive] using hop.unfinished
      obtain hsubmitted | hsubmitted := Bool.eq_false_or_eq_true op.submitted <;>
        simp [hlive, hop.live hlive, hunfinished, hsubmitted]
    · by_cases haccepted : op.accepted = true
      · simp [hlive, hop.finished haccepted hlive]
      · simp [hlive, haccepted]

theorem Sound.inbound_eq :
    member.share (.gauge .streamInboundBytes) = member.inboundBuffered := by
  cases member with
  | channel | unary => simp [share, inboundBuffered]
  | stream st =>
    have hst : st.Sound := hsound
    by_cases hfreed : st.stage = .freed
    · simp [share, inboundBuffered, hfreed, hst.empty]
    · simp [share, inboundBuffered, hfreed]

theorem Sound.outbound_eq :
    member.share (.gauge .streamOutboundBytes) = member.outboundBuffered := by
  cases member with
  | channel | unary => simp [share, outboundBuffered]
  | stream st =>
    have hst : st.Sound := hsound
    by_cases hfreed : st.stage = .freed
    · simp [share, outboundBuffered, hfreed, hst.empty]
    · simp [share, outboundBuffered, hfreed]

end Member

theorem Balances.rpcs_eq {unary stream : Limits} {s : Shared} {n : Share}
    (h : Balances unary stream s n) (hbelow : ∀ b, ended s.stats b < maxU64) :
    s.stats.activeUnaryCalls + s.stats.activeStreams + (s.stats.terminalOk +
      s.stats.terminalCancelled + s.stats.terminalDeadlineExceeded + s.stats.terminalOther) =
        Member.rpcs n := by
  have hended : ∀ b, ended s.stats b = n (.ended b) := by
    intro b
    have hb := h.stats.ended b
    have hlt := hbelow b
    omega
  have hunary : s.stats.activeUnaryCalls = n (.gauge .activeUnaryCalls) :=
    h.stats.gauge .activeUnaryCalls
  have hstream : s.stats.activeStreams = n (.gauge .activeStreams) := h.stats.gauge .activeStreams
  have hok : s.stats.terminalOk = n (.ended .ok) := hended .ok
  have hcancelled : s.stats.terminalCancelled = n (.ended .cancelled) := hended .cancelled
  have hdeadline : s.stats.terminalDeadlineExceeded = n (.ended .deadlineExceeded) :=
    hended .deadlineExceeded
  have hother : s.stats.terminalOther = n (.ended .other) := hended .other
  rw [hunary, hstream, hok, hcancelled, hdeadline, hother]
  rfl

/-- In every reachable state the active RPCs and those counted under their status are the accepted
ones, unless a counter has saturated; the gauges are the pending calls and the buffered bytes of the
streams that are not destroyed; the accounting has not panicked; and no step lowers a high-water
mark. -/
theorem channel_accounting (unary stream : Limits) (events : List (Pool.Event Call Action)) :
    let calls := Run.final step (start unary stream) events
    let stats := calls.shared.stats
    ((∀ b, ended stats b < maxU64) →
      stats.activeUnaryCalls + stats.activeStreams + (stats.terminalOk + stats.terminalCancelled +
        stats.terminalDeadlineExceeded + stats.terminalOther) =
          calls.members.countP Member.isAccepted) ∧
    stats.pendingUnaryCalls = calls.members.countP Member.isPending ∧
    stats.streamInboundBytes = Pool.total Member.inboundBuffered calls.members ∧
    stats.streamOutboundBytes = Pool.total Member.outboundBuffered calls.members ∧
    stats.panicked = false ∧
    ∀ event mark, highWater stats mark ≤ highWater (step calls event).shared.stats mark := by
  intro calls stats
  have hsound := run_sound unary stream events
  have hbalances := run_balances unary stream events
  refine ⟨?_, ?_, ?_, ?_, hbalances.stats.panicked, step_rises hsound⟩
  · intro hbelow
    rw [hbalances.rpcs_eq hbelow, Pool.total_hom, ← Pool.total_eq_countP]
    exact Pool.total_congr fun member hmember => (hsound member hmember).rpcs_eq
  · have hgauge := hbalances.stats.gauge .pendingUnaryCalls
    rw [total_apply] at hgauge
    rw [← Pool.total_eq_countP]
    exact hgauge.trans (Pool.total_congr fun member hmember => (hsound member hmember).pending_eq)
  · have hgauge := hbalances.stats.gauge .streamInboundBytes
    rw [total_apply] at hgauge
    exact hgauge.trans (Pool.total_congr fun member hmember => (hsound member hmember).inbound_eq)
  · have hgauge := hbalances.stats.gauge .streamOutboundBytes
    rw [total_apply] at hgauge
    exact hgauge.trans (Pool.total_congr fun member hmember => (hsound member hmember).outbound_eq)

def callEvents : List (Pool.Event Call Action) :=
  .join (.unary ⟨ascii "/a/b", [], [], 0, true⟩) ::
    List.map (fun action => .act 1 (.unary action))
      [.build false, .build false, .build false, .build false, .enqueue true false false,
        .startSubmission, .finish .ok]

theorem channel_accounting_call :
    (Run.final step (start ⟨1, 9, by decide, by decide⟩ ⟨0, 0, by decide, by decide⟩)
        callEvents).shared.stats.terminalOk = 1 ∧
      (Run.final step (start ⟨1, 9, by decide, by decide⟩ ⟨0, 0, by decide, by decide⟩)
        callEvents).members.countP Member.isAccepted = 1 := by
  have haccounting := channel_accounting ⟨1, 9, by decide, by decide⟩ ⟨0, 0, by decide, by decide⟩
    callEvents
  refine ⟨by decide, ?_⟩
  rw [← haccounting.1 (by intro b; cases b <;> decide)]
  decide

end GrpcLite.Channel
