import GrpcLite.Channel.Rpcs
import Mathlib.Algebra.Group.Pi.Basic
import Mathlib.Algebra.Notation.Pi.Basic
import Mathlib.Tactic.Abel

/-!
# The ledger of a channel

What the RPCs of a channel share accounts for what each of them holds.  A share says how much of
each quantity an RPC holds; every operation on the shared state exchanges shares.
-/

namespace GrpcLite.Channel

open Client (Gauge OperationalStats)

inductive Bucket where
  | ok
  | cancelled
  | deadlineExceeded
  | other
  deriving DecidableEq, Repr

def Bucket.of : Code → Bucket
  | .ok => .ok
  | .cancelled => .cancelled
  | .deadlineExceeded => .deadlineExceeded
  | _ => .other

def ended (stats : OperationalStats) : Bucket → ℕ
  | .ok => stats.terminalOk
  | .cancelled => stats.terminalCancelled
  | .deadlineExceeded => stats.terminalDeadlineExceeded
  | .other => stats.terminalOther

/-! ## The parts of the shared state -/

/-- The budget accounts for this many reservations of this many bytes. -/
structure Admission.Balances (limits : Limits) (a : Admission) (count bytes : ℕ) : Prop where
  limits_eq : a.limits = limits
  retained : a.retained = count
  retainedBytes : a.retainedBytes = bytes
  count_le : count ≤ limits.count
  bytes_le : bytes ≤ limits.bytes
  assertions : a.assertionFailed = false

namespace Admission

variable {limits : Limits} {a : Admission} {count bytes : ℕ}

variable {charge : ℕ}

theorem Balances.reserve (ha : a.Balances limits count bytes)
    (hreserve : (a.reserve charge).2 = true) :
    (a.reserve charge).1.Balances limits (count + 1) (bytes + charge) := by
  unfold Admission.reserve at hreserve ⊢
  split at hreserve
  · cases hreserve
  · rename_i hroom
    rw [if_neg hroom]
    obtain ⟨hcount, hbytes⟩ := not_or.mp hroom
    rw [ha.limits_eq, ha.retained] at hcount
    rw [ha.limits_eq, ha.retainedBytes] at hbytes
    have hle := ha.bytes_le
    exact ⟨ha.limits_eq, by simp [ha.retained], by simp [ha.retainedBytes], by omega, by omega,
      ha.assertions⟩

theorem Balances.reject (ha : a.Balances limits count bytes) :
    a.reject.Balances limits count bytes :=
  { ha with }

theorem reserve_eq_reject (hreserve : (a.reserve charge).2 = false) :
    (a.reserve charge).1 = a.reject := by
  unfold reserve at hreserve ⊢
  split at hreserve
  · rename_i hfull
    rw [if_pos hfull]
  · cases hreserve

theorem Balances.release (ha : a.Balances limits (count + 1) (bytes + charge)) :
    (a.release charge).Balances limits count bytes := by
  have hretained := ha.retained
  have hbytes := ha.retainedBytes
  have hcount_le := ha.count_le
  have hbytes_le := ha.bytes_le
  refine ⟨ha.limits_eq, by simp [Admission.release, hretained],
    by simp [Admission.release, hbytes], by omega, by omega, ?_⟩
  simp [Admission.release, ha.assertions, hretained, hbytes]

end Admission

/-- The accounting stands at these gauges and has seen these ends. -/
structure StatsBalance (stats : OperationalStats) (gauges : Gauge → ℕ) (ends : Bucket → ℕ) :
    Prop where
  gauge : ∀ g, stats.gauge g = gauges g
  ended : ∀ b, ended stats b = min (ends b) maxU64
  panicked : stats.panicked = false

section Stats

variable {stats : OperationalStats} {gauges : Gauge → ℕ} {ends : Bucket → ℕ}

theorem gauge_setGauge (stats : OperationalStats) (value : ℕ) (g g' : Gauge) :
    (stats.setGauge value g).gauge g' = Function.update stats.gauge g value g' := by
  cases g <;> cases g' <;> rfl

theorem gauge_raise (stats : OperationalStats) (g g' : Gauge) :
    (stats.raise g).gauge g' = stats.gauge g' := by
  cases g <;> cases g' <;> rfl

theorem ended_setGauge (stats : OperationalStats) (value : ℕ) (g : Gauge) (b : Bucket) :
    ended (stats.setGauge value g) b = ended stats b := by
  cases g <;> cases b <;> rfl

theorem ended_raise (stats : OperationalStats) (g : Gauge) (b : Bucket) :
    ended (stats.raise g) b = ended stats b := by
  cases g <;> cases b <;> rfl

theorem panicked_setGauge (stats : OperationalStats) (value : ℕ) (g : Gauge) :
    (stats.setGauge value g).panicked = stats.panicked := by
  cases g <;> rfl

theorem panicked_raise (stats : OperationalStats) (g : Gauge) :
    (stats.raise g).panicked = stats.panicked := by
  cases g <;> rfl

theorem gauge_count (stats : OperationalStats) (code : Code) (g : Gauge) :
    (stats.count code).gauge g = stats.gauge g := by
  cases code <;> cases g <;> rfl

theorem ended_count (stats : OperationalStats) (code : Code) (b : Bucket) :
    ended (stats.count code) b =
      if b = Bucket.of code then satAdd (ended stats b) 1 else ended stats b := by
  cases code <;> cases b <;> rfl

theorem panicked_count (stats : OperationalStats) (code : Code) :
    (stats.count code).panicked = stats.panicked := by
  cases code <;> rfl

theorem StatsBalance.setSocketBytes (h : StatsBalance stats gauges ends) (bytes : ℕ) :
    StatsBalance (stats.setSocketBytes bytes) gauges ends := by
  refine ⟨fun g => ?_, fun b => ?_, h.panicked⟩
  · rw [← h.gauge g]
    cases g <;> rfl
  · rw [← h.ended b]
    cases b <;> rfl

variable {g : Gauge} {amount : ℕ}

theorem StatsBalance.add (h : StatsBalance stats gauges ends) (hle : gauges g + amount ≤ maxU64) :
    StatsBalance (stats.add g amount) (gauges + Pi.single g amount) ends := by
  unfold OperationalStats.add
  rw [if_neg (by rw [h.gauge]; omega)]
  refine ⟨fun g' => ?_, fun b => ?_, ?_⟩
  · rw [gauge_raise, gauge_setGauge, Pi.add_apply, Pi.single_apply]
    by_cases hg : g' = g
    · simp [hg, h.gauge]
    · simp [hg, h.gauge]
  · rw [ended_raise, ended_setGauge, h.ended]
  · rw [panicked_raise, panicked_setGauge, h.panicked]

theorem StatsBalance.setGauge (h : StatsBalance stats (gauges + Pi.single g amount) ends) :
    StatsBalance (stats.setGauge (stats.gauge g - amount) g) gauges ends := by
  refine ⟨fun g' => ?_, fun b => ?_, ?_⟩
  · have hg' := h.gauge g'
    rw [gauge_setGauge]
    rw [Pi.add_apply, Pi.single_apply] at hg'
    by_cases hg : g' = g
    · subst hg
      simp [hg']
    · simpa [hg] using hg'
  · rw [ended_setGauge, h.ended]
  · rw [panicked_setGauge, h.panicked]

theorem StatsBalance.subtract (h : StatsBalance stats (gauges + Pi.single g amount) ends) :
    StatsBalance (stats.subtract g amount) gauges ends := by
  have hge : ¬stats.gauge g < amount := by
    rw [h.gauge, Pi.add_apply, Pi.single_eq_same]
    omega
  unfold OperationalStats.subtract
  rw [if_neg hge]
  exact h.setGauge

theorem StatsBalance.terminal (h : StatsBalance stats (gauges + Pi.single g 1) ends) (code : Code) :
    StatsBalance (stats.terminal g code) gauges (ends + Pi.single (Bucket.of code) 1) := by
  have hne : ¬stats.gauge g = 0 := by
    rw [h.gauge, Pi.add_apply, Pi.single_eq_same]
    omega
  have hset := h.setGauge
  unfold OperationalStats.terminal
  rw [if_neg hne]
  refine ⟨fun g' => by rw [gauge_count, hset.gauge],
    fun b => ?_, by rw [panicked_count, hset.panicked]⟩
  rw [ended_count, hset.ended, Pi.add_apply, Pi.single_apply]
  split
  · unfold satAdd
    omega
  · simp

end Stats

/-! ## Shares -/

inductive Quantity where
  | calls
  | callBytes
  | streams
  | bufferBytes
  | references
  | gauge (g : Gauge)
  | ended (b : Bucket)
  deriving DecidableEq, Repr

abbrev Share := Quantity → ℕ

def one (q : Quantity) (amount : ℕ) : Share := Pi.single q amount

@[simp] theorem one_apply (q q' : Quantity) (amount : ℕ) :
    one q amount q' = if q' = q then amount else 0 := Pi.single_apply q amount q'

@[simp] theorem one_zero (q : Quantity) : one q 0 = 0 := Pi.single_zero q

theorem one_add (q : Quantity) (amount amount' : ℕ) :
    one q (amount + amount') = one q amount + one q amount' := by
  funext q'
  simp only [one_apply, Pi.add_apply]
  split <;> rfl

def callShare (charge : ℕ) : Share := one .calls 1 + one .callBytes charge

def streamShare (charge : ℕ) : Share := one .streams 1 + one .bufferBytes charge

def flagShare (flag : Bool) (q : Quantity) : Share := if flag then one q 1 else 0

@[simp] theorem flagShare_true (q : Quantity) : flagShare true q = one q 1 := rfl

@[simp] theorem flagShare_false (q : Quantity) : flagShare false q = 0 := rfl

def endShare (counted : Option Code) : Share :=
  match counted with
  | none => 0
  | some code => one (.ended (Bucket.of code)) 1

@[simp] theorem flagShare_apply (flag : Bool) (q q' : Quantity) :
    flagShare flag q q' = if q' = q then flag.toNat else 0 := by
  cases flag <;> simp [flagShare]

@[simp] theorem endShare_apply (counted : Option Code) (q : Quantity) :
    endShare counted q = if ∃ code, counted = some code ∧
      q = .ended (Bucket.of code) then 1 else 0 := by
  cases counted <;> simp [endShare]

structure Balances (unary stream : Limits) (s : Shared) (n : Share) : Prop where
  unary : s.unary.Balances unary (n .calls) (n .callBytes)
  stream : s.stream.Balances stream (n .streams) (n .bufferBytes)
  references : s.references = n .references
  stats : StatsBalance s.stats (fun g => n (.gauge g)) (fun b => n (.ended b))

section Exchange

variable {unary stream : Limits} {s : Shared} {n : Share} {charge : ℕ}

theorem Balances.releaseUnary (h : Balances unary stream s (n + callShare charge)) :
    Balances unary stream { s with unary := s.unary.release charge } n := by
  obtain ⟨hunary, hstream, hreferences, hstats⟩ := h
  simp [callShare] at hunary hstream hreferences hstats
  exact ⟨hunary.release, hstream, hreferences, hstats⟩

theorem Balances.reserveUnary (h : Balances unary stream s n)
    (hreserve : (s.unary.reserve charge).2 = true) :
    Balances unary stream { s with unary := (s.unary.reserve charge).1 }
      (n + callShare charge) := by
  refine ⟨?_, ?_, ?_, ?_⟩
  · simpa [callShare] using h.unary.reserve hreserve
  · simpa [callShare] using h.stream
  · simpa [callShare] using h.references
  · simpa [callShare] using h.stats

theorem Balances.releaseStream (h : Balances unary stream s (n + streamShare charge)) :
    Balances unary stream { s with stream := s.stream.release charge } n := by
  obtain ⟨hunary, hstream, hreferences, hstats⟩ := h
  simp [streamShare] at hunary hstream hreferences hstats
  exact ⟨hunary, hstream.release, hreferences, hstats⟩

theorem Balances.reserveStream (h : Balances unary stream s n)
    (hreserve : (s.stream.reserve charge).2 = true) :
    Balances unary stream { s with stream := (s.stream.reserve charge).1 }
      (n + streamShare charge) := by
  refine ⟨?_, ?_, ?_, ?_⟩
  · simpa [streamShare] using h.unary
  · simpa [streamShare] using h.stream.reserve hreserve
  · simpa [streamShare] using h.references
  · simpa [streamShare] using h.stats

theorem Balances.retain (h : Balances unary stream s n) :
    Balances unary stream { s with references := s.references + 1 }
      (n + one .references 1) := by
  refine ⟨?_, ?_, ?_, ?_⟩
  · simpa using h.unary
  · simpa using h.stream
  · simpa using h.references
  · simpa using h.stats

theorem Balances.releaseReference (h : Balances unary stream s (n + one .references 1)) :
    Balances unary stream { s with references := s.references - 1 } n := by
  obtain ⟨hunary, hstream, hreferences, hstats⟩ := h
  simp at hunary hstream hreferences hstats
  exact ⟨hunary, hstream, by simp [hreferences], hstats⟩

theorem gauges_single (n : Share) (g : Gauge) (amount : ℕ) :
    (fun g' => (n + one (.gauge g) amount) (.gauge g')) =
      (fun g' => n (.gauge g')) + Pi.single g amount := by
  funext g'
  simp [Pi.single_apply]

variable {g : Gauge}

theorem Balances.add (h : Balances unary stream s n) {amount : ℕ}
    (hle : n (.gauge g) + amount ≤ maxU64) :
    Balances unary stream { s with stats := s.stats.add g amount }
      (n + one (.gauge g) amount) := by
  refine ⟨?_, ?_, ?_, ?_⟩
  · simpa using h.unary
  · simpa using h.stream
  · simpa using h.references
  · rw [gauges_single]
    simpa using h.stats.add hle

theorem Balances.subtract {amount : ℕ} (h : Balances unary stream s (n + one (.gauge g) amount)) :
    Balances unary stream { s with stats := s.stats.subtract g amount } n := by
  obtain ⟨hunary, hstream, hreferences, hstats⟩ := h
  rw [gauges_single] at hstats
  simp at hunary hstream hreferences hstats
  exact ⟨hunary, hstream, hreferences, hstats.subtract⟩

theorem Balances.terminal (h : Balances unary stream s (n + one (.gauge g) 1)) (code : Code) :
    Balances unary stream { s with stats := s.stats.terminal g code }
      (n + endShare (some code)) := by
  obtain ⟨hunary, hstream, hreferences, hstats⟩ := h
  rw [gauges_single] at hstats
  simp at hunary hstream hreferences hstats
  refine ⟨?_, ?_, ?_, ?_⟩
  · simpa [endShare] using hunary
  · simpa [endShare] using hstream
  · simpa [endShare] using hreferences
  · have hends : (fun b => (n + endShare (some code)) (.ended b)) =
        (fun b => n (.ended b)) + Pi.single (Bucket.of code) 1 := by
      funext b
      simp [endShare, Pi.single_apply]
    rw [hends]
    simpa [endShare] using hstats.terminal code

end Exchange

def bounded : AddSubmonoid Share where
  carrier := { n | n (.gauge .activeUnaryCalls) ≤ n .calls ∧
    n (.gauge .pendingUnaryCalls) ≤ n .calls ∧ n (.gauge .activeStreams) ≤ n .streams ∧
      n (.gauge .streamOutboundBytes) + n (.gauge .streamInboundBytes) ≤ n .bufferBytes }
  zero_mem' := by simp
  add_mem' := by
    intro a b ha hb
    simp only [Set.mem_ofPred_eq, Pi.add_apply] at *
    omega

end GrpcLite.Channel
