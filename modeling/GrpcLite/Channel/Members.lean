import GrpcLite.Channel.Ledger

/-!
# What the RPCs of a channel hold

The share of each RPC and what holds of it between two steps.  Every action of a unary call leaves
the shared state accounting for the shares of all RPCs.
-/

namespace GrpcLite.Channel

/-! ## Stages -/

@[simp] theorem Stage.isStored_refused : refused.isStored = false := rfl

@[simp] theorem Stage.isStored_building (allocations : List Allocation) (metadata : List Entry) :
    (building allocations metadata).isStored = true := rfl

@[simp] theorem Stage.isStored_built : built.isStored = true := rfl

@[simp] theorem Stage.isStored_live : live.isStored = true := rfl

@[simp] theorem Stage.isStored_done : done.isStored = true := rfl

@[simp] theorem Stage.isStored_freed : freed.isStored = false := rfl

/-- A construction goes on, ends or fails, and then its storage goes; nothing else is built. -/
theorem Stage.build_cases (fails : Bool) (stage : Stage) :
    (∃ allocations metadata, stage = .building allocations metadata ∧
      (stage.build fails = none ∨ stage.build fails = some .built ∨
        ∃ allocations' metadata', stage.build fails = some (.building allocations' metadata'))) ∨
    (∀ allocations metadata, stage ≠ .building allocations metadata) ∧
      stage.build fails = some stage := by
  unfold build
  split
  · rename_i first allocations metadata
    refine .inl ⟨first :: allocations, metadata, rfl, ?_⟩
    split
    · exact .inl rfl
    · exact .inr (.inr ⟨allocations, metadata, rfl⟩)
  · rename_i entry metadata
    refine .inl ⟨[], entry :: metadata, rfl, ?_⟩
    split
    · exact .inl rfl
    · exact .inr (.inr ⟨[], metadata, rfl⟩)
  · exact .inl ⟨[], [], rfl, .inr (.inl rfl)⟩
  · rename_i hfirst hentry hlast
    refine .inr ⟨?_, rfl⟩
    intro allocations metadata hstage
    match allocations, metadata with
    | first :: rest, metadata => exact hfirst first rest metadata hstage
    | [], entry :: rest => exact hentry entry rest hstage
    | [], [] => exact hlast hstage

/-! ## Shares of the members -/

def Unary.share (op : Unary) : Share :=
  (if op.stage.isStored then callShare op.charge else 0) +
    flagShare op.operationalActive (.gauge .activeUnaryCalls) +
      flagShare op.operationalPending (.gauge .pendingUnaryCalls) + endShare op.counted

def Stream.share (st : Stream) : Share :=
  (if st.stage.isStored then streamShare st.charge else 0) + flagShare st.retained .references +
    flagShare st.operationalActive (.gauge .activeStreams) +
      one (.gauge .streamOutboundBytes) st.outboundBuffered +
        one (.gauge .streamInboundBytes) st.inboundBuffered + endShare st.counted

@[simp] theorem Unary.share_apply (op : Unary) (q : Quantity) :
    op.share q = match q with
      | .calls => if op.stage.isStored then 1 else 0
      | .callBytes => if op.stage.isStored then op.charge else 0
      | .streams | .bufferBytes | .references => 0
      | .gauge .activeUnaryCalls => op.operationalActive.toNat
      | .gauge .pendingUnaryCalls => op.operationalPending.toNat
      | .gauge _ => 0
      | .ended b => if op.counted.map Bucket.of = some b then 1 else 0 := by
  cases q with
  | gauge g => cases g <;> cases hstored : op.stage.isStored <;>
    simp [share, callShare, hstored]
  | calls | callBytes | streams | bufferBytes | references | ended =>
    cases hstored : op.stage.isStored <;> simp [share, callShare, hstored, eq_comm]

@[simp] theorem Stream.share_apply (st : Stream) (q : Quantity) :
    st.share q = match q with
      | .calls | .callBytes => 0
      | .streams => if st.stage.isStored then 1 else 0
      | .bufferBytes => if st.stage.isStored then st.charge else 0
      | .references => st.retained.toNat
      | .gauge .activeStreams => st.operationalActive.toNat
      | .gauge .streamOutboundBytes => st.outboundBuffered
      | .gauge .streamInboundBytes => st.inboundBuffered
      | .gauge _ => 0
      | .ended b => if st.counted.map Bucket.of = some b then 1 else 0 := by
  cases q with
  | gauge g => cases g <;> cases hstored : st.stage.isStored <;>
    simp [share, streamShare, hstored]
  | calls | callBytes | streams | bufferBytes | references | ended =>
    cases hstored : st.stage.isStored <;> simp [share, streamShare, hstored, eq_comm]

def Member.share : Member → Share
  | .channel alive => flagShare alive .references
  | .unary op => op.share
  | .stream st => st.share

structure Unary.Sound (op : Unary) : Prop where
  reservations : op.reservations = if op.stage = .refused then 0 else 1
  releases : op.releases = if op.stage = .freed then 1 else 0
  active : op.operationalActive = decide (op.stage = .live)
  pending : op.operationalPending = (decide (op.stage = .live) && !op.submitted)
  counted : op.counted.isSome = (op.accepted && decide (op.stage ≠ .live))
  early : op.accepted = true → op.stage = .live ∨ op.stage = .done ∨ op.stage = .freed
  live : op.stage = .live → op.accepted = true
  submitted : op.submitted = true → op.accepted = true
  unfinished : op.finished = true → op.stage = .done ∨ op.stage = .freed
  finished : op.accepted = true → op.stage ≠ .live → op.finished = true

structure Stream.Sound (st : Stream) : Prop where
  reservations : st.reservations = if st.stage = .refused then 0 else 1
  releases : st.releases = if st.stage = .freed then 1 else 0
  retained : st.retained =
    (st.stage.isStored && match st.stage with
      | .building (.create :: _) _ => false
      | _ => true)
  shape : ∀ allocations metadata, st.stage = .building allocations metadata →
    allocations = [.create, .path] ∨ allocations = [.path] ∨ allocations = []
  charge : st.stage.isStored = true →
    st.charge = st.limits.maxInboundBufferSize + st.limits.maxOutboundBufferSize
  outbound : st.outboundBuffered = (st.outbound.map OutboundFrame.length).sum
  outbound_le : st.outboundBuffered ≤ st.limits.maxOutboundBufferSize
  inbound : st.inboundBuffered = st.inbound.sum
  inbound_le : st.inboundBuffered ≤ st.limits.maxInboundBufferSize
  empty : st.stage ≠ .live → st.outboundBuffered = 0 ∧ st.inboundBuffered = 0
  active : st.operationalActive = (decide (st.stage = .live) && !st.terminal)
  counted : st.counted.isSome = (st.accepted && st.terminal)
  terminal : st.stage = .freed → st.accepted = true → st.terminal = true
  early : st.accepted = true → st.stage = .live ∨ st.stage = .freed
  accepted : st.stage = .live → st.accepted = true
  unaccepted : st.accepted = false → st.terminal = false
  ended : st.loopOwned = false → st.stage = .freed ∨ st.terminal = true

section UnaryCalls

variable {unary stream : Limits} {s : Shared} {n : Share} {op : Unary}

def Unary.activity (op : Unary) : Share :=
  flagShare op.operationalActive (.gauge .activeUnaryCalls) +
    flagShare op.operationalPending (.gauge .pendingUnaryCalls) + endShare op.counted

theorem Unary.share_eq (op : Unary) :
    op.share = (if op.stage.isStored then callShare op.charge else 0) + op.activity := by
  unfold share activity
  abel

theorem Unary.deinit_balances (hstored : op.stage.isStored = true)
    (h : Balances unary stream s (n + op.share)) :
    Balances unary stream (op.deinit s).1 (n + (op.deinit s).2.share) := by
  rw [share_eq, if_pos hstored] at h
  have hsplit : n + (callShare op.charge + op.activity) = (n + op.activity) +
      callShare op.charge := by
    abel
  rw [hsplit] at h
  rw [share_eq]
  simpa [deinit, activity] using h.releaseUnary

theorem Unary.endOperationalPending_balances (h : Balances unary stream s (n + op.share)) :
    Balances unary stream (op.endOperationalPending s).1
      (n + (op.endOperationalPending s).2.share) := by
  unfold endOperationalPending
  split
  · rename_i hpending
    have hsplit : n + op.share =
        (n + { op with operationalPending := false }.share) + one
          (.gauge .pendingUnaryCalls) 1 := by
      simp only [share, flagShare, hpending, if_true, Bool.false_eq_true, if_false]
      abel
    rw [hsplit] at h
    exact h.subtract
  · exact h

theorem Unary.endOperationalActive_balances
    (hcounted : op.operationalActive = true → op.counted = none) (code : Code)
    (h : Balances unary stream s (n + op.share)) :
    Balances unary stream (op.endOperationalActive code s).1
      (n + (op.endOperationalActive code s).2.share) := by
  unfold endOperationalActive
  split
  · rename_i hactive
    have hbefore : n + op.share =
        (n + { op with operationalActive := false }.share) + one (.gauge .activeUnaryCalls) 1 := by
      simp only [share, flagShare, hactive, if_true, Bool.false_eq_true, if_false]
      abel
    have hafter : n + { op with operationalActive := false, counted := some code }.share =
        (n + { op with operationalActive := false }.share) + endShare (some code) := by
      simp only [share, hcounted hactive, endShare]
      abel
    rw [hbefore] at h
    rw [hafter]
    exact h.terminal code
  · exact h

/-- `endOperationalPending` leaves the rest of the call alone. -/
theorem Unary.endOperationalPending_eq (s : Shared) (op : Unary) :
    (op.endOperationalPending s).2 = { op with operationalPending := false } := by
  unfold endOperationalPending
  split
  · rfl
  · rename_i hpending
    have hpending : op.operationalPending = false := by simpa using hpending
    rw [← hpending]

theorem Unary.endOperationalActive_eq (code : Code) (s : Shared) (op : Unary) :
    (op.endOperationalActive code s).2 = { op with
      operationalActive := false
      counted := if op.operationalActive then some code else op.counted } := by
  unfold endOperationalActive
  split
  · rfl
  · rename_i hactive
    have hactive : op.operationalActive = false := by simpa using hactive
    rw [← hactive]

theorem Unary.finish_eq (code : Code) (s : Shared) (op : Unary) :
    (op.finish code s).2 = { op with
      finished := true
      operationalPending := false
      operationalActive := false
      counted := if op.operationalActive then some code else op.counted
      stage := .done } := by
  simp only [finish, endOperationalActive_eq, endOperationalPending_eq]

theorem Unary.finish_balances (hstored : op.stage.isStored = true)
    (hcounted : op.operationalActive = true → op.counted = none) (code : Code)
    (h : Balances unary stream s (n + op.share)) :
    Balances unary stream (op.finish code s).1 (n + (op.finish code s).2.share) := by
  have hfinished : Balances unary stream s (n + { op with finished := true }.share) := h
  have hpending := endOperationalPending_balances hfinished
  have hended := endOperationalActive_balances
    (by rwa [endOperationalPending_eq]) code hpending
  have hshare : (op.finish code s).2.share =
      (endOperationalActive code (endOperationalPending s { op with finished := true }).1
        (endOperationalPending s { op with finished := true }).2).2.share := by
    rw [finish_eq, endOperationalActive_eq, endOperationalPending_eq]
    simp [share, hstored]
  rw [hshare]
  exact hended

structure Unary.Unseen (op : Unary) : Prop where
  reservations : op.reservations = 1
  releases : op.releases = 0
  active : op.operationalActive = false
  pending : op.operationalPending = false
  accepted : op.accepted = false
  submitted : op.submitted = false
  finished : op.finished = false
  counted : op.counted = none

theorem Unary.Sound.unseen (hsound : op.Sound) (hrefused : op.stage ≠ .refused)
    (hlive : op.stage ≠ .live) (hdone : op.stage ≠ .done) (hfreed : op.stage ≠ .freed) :
    op.Unseen := by
  have haccepted : op.accepted = false := by
    by_contra haccepted
    have hearly := hsound.early (by simpa using haccepted)
    simp [hlive, hdone, hfreed] at hearly
  refine ⟨?_, ?_, ?_, ?_, haccepted, ?_, ?_, ?_⟩
  · simp [hsound.reservations, hrefused]
  · simp [hsound.releases, hfreed]
  · simp [hsound.active, hlive]
  · simp [hsound.pending, hlive]
  · simpa [haccepted] using hsound.submitted
  · simpa [hdone, hfreed] using hsound.unfinished
  · simpa [haccepted] using hsound.counted

/-- What an action does to a call. -/
inductive Unary.Acts (s : Shared) (op : Unary) : Shared × Unary → Prop
  | same : Acts s op (s, op)
  | build {allocations : List Allocation} {metadata : List Entry} (stage : Stage)
      (hstage : op.stage = .building allocations metadata)
      (hnext : stage = .built ∨ ∃ allocations metadata, stage = .building allocations metadata) :
      Acts s op (s, { op with stage := stage })
  | deinit (hstored : op.stage.isStored = true) (hlive : op.stage ≠ .live) : Acts s op (op.deinit s)
  | finish (code : Code) (hstage : op.stage = .built ∨ op.stage = .live) :
      Acts s op (op.finish code s)
  | accept (hbuilt : op.stage = .built) :
      Acts s op ({ s with stats := (s.stats.add .activeUnaryCalls 1).add .pendingUnaryCalls 1 },
        { op with
          stage := .live, operationalActive := true, operationalPending := true, accepted := true })
  | startSubmission (hlive : op.stage = .live) : Acts s op (op.startSubmission s)

theorem Unary.acts (s : Shared) (op : Unary) (action : UnaryAction) :
    op.Acts s (op.act s action) := by
  have hguard {p : Prop} [Decidable p] {x : Shared × Unary} (hx : p → op.Acts s x) :
      op.Acts s (if p then x else (s, op)) := by
    split
    · exact hx ‹p›
    · exact .same
  cases action with
  | build fails =>
    simp only [act, build]
    obtain ⟨_, _, hstage, hfailed | hbuilt | ⟨_, _, hmore⟩⟩ | ⟨-, hsame⟩ :=
      op.stage.build_cases fails
    · rw [hfailed]
      exact .deinit (by simp [hstage]) (by simp [hstage])
    · rw [hbuilt]
      exact .build _ hstage (.inl rfl)
    · rw [hmore]
      exact .build _ hstage (.inr ⟨_, _, rfl⟩)
    · rw [hsame]
      exact .same
  | enqueue running appendFails notifyFails =>
    refine hguard fun hbuilt => ?_
    have hdeinit : op.Acts s (op.deinit s) := .deinit (by simp [hbuilt]) (by simp [hbuilt])
    have hturn : op.Acts s (op.turnAway s) := by
      unfold turnAway
      split
      · exact .finish _ (.inl hbuilt)
      · exact hdeinit
    unfold enqueue
    split
    · exact hturn
    split
    · exact hdeinit
    split
    · exact hturn
    · exact .accept hbuilt
  | startSubmission => exact hguard .startSubmission
  | finish code => exact hguard fun hlive => .finish code (.inr hlive)
  | deinit => exact hguard fun hdone => .deinit (by simp [hdone]) (by simp [hdone])

variable {x : Shared × Unary} (hsound : op.Sound)

include hsound

theorem Unary.Acts.sound (h : op.Acts s x) : x.2.Sound := by
  cases h with
  | same => exact hsound
  | build stage hstage hnext =>
    obtain ⟨hreservations, hreleases, hactive, hpending, haccepted, hsubmitted, hfinished,
      hcounted⟩ := hsound.unseen (by simp [hstage]) (by simp [hstage]) (by simp [hstage])
        (by simp [hstage])
    obtain rfl | ⟨_, _, rfl⟩ := hnext <;> constructor <;> simp [*]
  | deinit hstored hlive =>
    have hrefused : op.stage ≠ .refused := fun h => by simp [h] at hstored
    have hfreed : op.stage ≠ .freed := fun h => by simp [h] at hstored
    exact
      { reservations := by simpa [Unary.deinit, hrefused] using hsound.reservations
        releases := by simpa [Unary.deinit, hfreed] using hsound.releases
        active := by simpa [Unary.deinit, hlive] using hsound.active
        pending := by simpa [Unary.deinit, hlive] using hsound.pending
        counted := by simpa [Unary.deinit, hlive] using hsound.counted
        early := fun _ => .inr (.inr rfl)
        live := nofun
        submitted := hsound.submitted
        unfinished := fun _ => .inr rfl
        finished := fun haccepted _ => hsound.finished haccepted hlive }
  | finish code hstage =>
    rw [finish_eq]
    obtain ⟨hreservations, hreleases, hactive, hpending, hcounted, hearly, hlives, hsubmitted,
      hunfinished, hfinished⟩ := hsound
    obtain hstage | hstage := hstage <;> constructor <;> simp_all
  | accept hbuilt =>
    obtain ⟨hreservations, hreleases, -, -, -, hsubmitted, hfinished, hcounted⟩ :=
      hsound.unseen (by simp [hbuilt]) (by simp [hbuilt]) (by simp [hbuilt]) (by simp [hbuilt])
    constructor <;> simp [*]
  | startSubmission hlive =>
    simp only [Unary.startSubmission, endOperationalPending_eq]
    exact { hsound with pending := by simp, submitted := fun _ => hsound.live hlive }

theorem Unary.accept_balances (hbuilt : op.stage = .built) (hn : n ∈ bounded)
    (h : Balances unary stream s (n + op.share)) :
    Balances unary stream
      { s with stats := (s.stats.add .activeUnaryCalls 1).add .pendingUnaryCalls 1 }
      (n + { op with
        stage := .live, operationalActive := true, operationalPending := true
        accepted := true }.share) := by
  have hop : op.Unseen := hsound.unseen (by simp [hbuilt]) (by simp [hbuilt]) (by simp [hbuilt])
    (by simp [hbuilt])
  have hshare : op.share = callShare op.charge := by
    simp [share, hbuilt, hop.active, hop.pending, hop.counted, flagShare, endShare]
  rw [hshare] at h
  -- Both gauges are bounded by the number of reserved calls.
  have hcalls : n .calls + 1 ≤ maxU64 := by
    have hle := h.unary.count_le
    have hlimit := unary.count_le
    simp [callShare] at hle
    omega
  obtain ⟨hactive, hpending, -⟩ := hn
  have hfirst : Balances unary stream { s with stats := s.stats.add .activeUnaryCalls 1 }
      (n + callShare op.charge + one (.gauge .activeUnaryCalls) 1) :=
    h.add (by simp [callShare]; omega)
  have hsecond : Balances unary stream
      { s with stats := (s.stats.add .activeUnaryCalls 1).add .pendingUnaryCalls 1 }
      (n + callShare op.charge + one (.gauge .activeUnaryCalls) 1 +
        one (.gauge .pendingUnaryCalls) 1) :=
    hfirst.add (by simp [callShare]; omega)
  simpa [share, flagShare, endShare, hop.counted, add_assoc] using hsecond

theorem Unary.Acts.balances (hacts : op.Acts s x) (hn : n ∈ bounded)
    (h : Balances unary stream s (n + op.share)) : Balances unary stream x.1 (n + x.2.share) := by
  cases hacts with
  | same => exact h
  | build stage hstage hnext => obtain rfl | ⟨_, _, rfl⟩ := hnext <;> simpa [share, hstage] using h
  | deinit hstored => exact deinit_balances hstored h
  | finish code hstage =>
    refine finish_balances (by obtain h | h := hstage <;> simp [h]) (fun hactive => ?_) code h
    have hlive : op.stage = .live := by simpa [hsound.active] using hactive
    simpa [hlive] using hsound.counted
  | accept hbuilt => exact accept_balances hsound hbuilt hn h
  | startSubmission => exact endOperationalPending_balances h

theorem Unary.Sound.share_mem : op.share ∈ bounded := by
  have hactive : op.operationalActive.toNat ≤ if op.stage.isStored then 1 else 0 := by
    rw [hsound.active]
    by_cases hlive : op.stage = .live <;> simp [hlive]
  have hpending : op.operationalPending.toNat ≤ if op.stage.isStored then 1 else 0 := by
    rw [hsound.pending]
    by_cases hlive : op.stage = .live
    · simpa [hlive] using Bool.toNat_le _
    · simp [hlive]
  exact ⟨by simpa using hactive, by simpa using hpending, by simp, by simp⟩

end UnaryCalls

end GrpcLite.Channel
