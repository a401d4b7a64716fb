import GrpcLite.Lib.Run
import GrpcLite.Wire.Status
import Mathlib.Logic.Function.Basic

/-!
# The fast clock

`fast_clock.zig`: threads that call `now`, `validatedNow` and `warmup` share a few atomic variables.
Every access to one of them, to the cycle counter or to the monotonic clock is a step of its own,
and the steps of the threads interleave in any order.  The counter never goes backwards.
-/

namespace GrpcLite.FastClock

inductive Backend where
  | uninitialized
  | initializing
  | cycles
  | monotonic
  deriving DecidableEq, Repr

inductive FallbackReason where
  | none
  | counterUnavailable
  | unsupportedImplementation
  | unstablePlatform
  | invalidFrequency
  | unstableInitialSample
  | counterRegression
  | conversionOverflow
  | runtimeDrift
  deriving DecidableEq, Repr

def nsPerS : ℕ := 1000000000

def validationIntervalNs : ℕ := 100 * 1000000

def validationToleranceNs : ℕ := 2 * 1000000

structure Sample where
  cycles : ℕ
  monotonicNs : ℕ
  deriving DecidableEq, Repr

def castU64 (value : ℕ) : Option ℕ := if value ≤ maxU64 then some value else none

def estimateFrequency (first second : Sample) : Option ℕ :=
  if second.cycles ≤ first.cycles ∨ second.monotonicNs ≤ first.monotonicNs then none
  else castU64 ((second.cycles - first.cycles) * nsPerS / (second.monotonicNs - first.monotonicNs))

def withinTolerance (first second tolerance : ℕ) : Bool :=
  let difference := if second < first then first - second else second - first
  difference ≤ tolerance

def scaleCyclesToNs (cycles frequency : ℕ) : Option ℕ :=
  if frequency = 0 then none else castU64 (cycles * nsPerS / frequency)

def scaleNsToCycles (nanoseconds frequency : ℕ) : Option ℕ :=
  castU64 (nanoseconds * frequency / nsPerS)

/-- The variables of the module and the cycle counter.  The sequence is a `u32`. -/
structure Shared where
  backend : Backend := .uninitialized
  fallbackReason : FallbackReason := .none
  validationLock : Bool := false
  nextValidationCycles : ℕ := 0
  calibrationSequence : ℕ := 0
  baseCycles : ℕ := 0
  baseMonotonicNs : ℕ := 0
  cyclesPerSecond : ℕ := 0
  validationBase : Sample := ⟨0, 0⟩
  counter : ℕ := 0
  deriving Repr

inductive Call where
  | now
  | validatedNow
  | warmup
  deriving DecidableEq, Repr

/-- Who updates the calibration: `initialize`, or `validateIfDue` with its prediction. -/
inductive Origin where
  | startup
  | validate (predicted : ℕ)
  deriving DecidableEq, Repr

/-- Where a thread goes on after `fallBack`: `ensureInitialized` is over, `now` returns the
monotonic clock, `validateIfDue` unlocks, or `validatedNow` is over. -/
inductive After where
  | ensured
  | returnMonotonic
  | unlock (predicted : ℕ)
  | done
  deriving DecidableEq, Repr

inductive Pc where
  | idle
  | loadBackend
  | ensure
  | claim
  | probe
  | firstSample
  | secondSample (first : Sample)
  | beginUpdate (origin : Origin) (sample : Sample) (monotonicNs frequency : ℕ)
  | storeBase (origin : Origin) (sample : Sample) (monotonicNs frequency : ℕ)
  | storeNs (origin : Origin) (sample : Sample) (monotonicNs frequency : ℕ)
  | storeFrequency (origin : Origin) (sample : Sample) (frequency : ℕ)
  | endUpdate (origin : Origin) (sample : Sample) (frequency : ℕ)
  | storeNext (origin : Origin) (sample : Sample) (interval : ℕ)
  | storeBackend
  | readCounter
  | loadSequence (cycles : ℕ)
  | loadBase (cycles sequence : ℕ)
  | loadNs (cycles sequence base : ℕ)
  | loadFrequency (cycles sequence base ns : ℕ)
  | checkSequence (cycles sequence base ns frequency : ℕ)
  | loadNext (cycles predicted : ℕ)
  | lock (cycles predicted : ℕ)
  | loadLocked (cycles predicted : ℕ)
  | validate (cycles predicted : ℕ)
  | unlock (predicted : ℕ)
  | reload (predicted : ℕ)
  | monotonic
  | returned (value : ℕ)
  | compare (predicted : ℕ)
  | fallBack (reason : FallbackReason) (after : After)
  | fallBackBackend (after : After)
  deriving DecidableEq, Repr

structure Thread where
  call : Call := .now
  pc : Pc := .idle
  deriving DecidableEq, Repr

inductive Platform where
  | stable
  | unavailable
  | unsupported
  | unstable
  deriving DecidableEq, Repr

/-- What a step takes from outside: whether the counter can be read, the monotonic clock, the
platform and whether the sleep between the samples succeeds. -/
structure Input where
  available : Bool := true
  monotonicNow : ℕ := 0
  platform : Platform := .stable
  slept : Bool := true
  deriving DecidableEq, Repr

def ensured : Call → Pc
  | .warmup => .idle
  | .now | .validatedNow => .loadBackend

def resume (call : Call) : After → Pc
  | .ensured => ensured call
  | .returnMonotonic => .monotonic
  | .unlock predicted => .unlock predicted
  | .done => .idle

def Origin.after : Origin → After
  | .startup => .ensured
  | .validate predicted => .unlock predicted

/-- The end of `predictNs`, which has a consistent calibration. -/
def predict (cycles base ns frequency : ℕ) : Pc :=
  if cycles < base then .fallBack .counterRegression .returnMonotonic
  else match (scaleCyclesToNs (cycles - base) frequency).bind (checkedAdd ns) with
    | none => .fallBack .conversionOverflow .returnMonotonic
    | some predicted => .loadNext cycles predicted

def validate (validationBase : Sample) (cycles predicted actual : ℕ) : Pc :=
  if !withinTolerance predicted actual validationToleranceNs then
    .fallBack .runtimeDrift (.unlock predicted)
  else match estimateFrequency validationBase ⟨cycles, actual⟩ with
    | none => .fallBack .invalidFrequency (.unlock predicted)
    | some frequency => .beginUpdate (.validate predicted) ⟨cycles, actual⟩ predicted frequency

def calibrate (first second : Sample) : Pc :=
  match estimateFrequency first second with
  | none => .fallBack .invalidFrequency .ensured
  | some frequency => .beginUpdate .startup second second.monotonicNs frequency

def advance (shared : Shared) (call : Call) (input : Input) : Pc → Shared × Pc
  | .idle => (shared, .idle)
  | .loadBackend => (shared, match shared.backend with
    | .monotonic => .monotonic
    | .cycles => .readCounter
    | .uninitialized | .initializing => .ensure)
  | .ensure => (shared, match shared.backend with
    | .cycles | .monotonic => ensured call
    | .initializing => .ensure
    | .uninitialized => .claim)
  | .claim =>
    if shared.backend = .uninitialized then ({ shared with backend := .initializing }, .probe)
    else (shared, .ensure)
  | .probe => (shared, match input.platform with
    | .stable => .firstSample
    | .unavailable => .fallBack .counterUnavailable .ensured
    | .unsupported => .fallBack .unsupportedImplementation .ensured
    | .unstable => .fallBack .unstablePlatform .ensured)
  | .firstSample => (shared,
    if input.available then .secondSample ⟨shared.counter, input.monotonicNow⟩
    else .fallBack .counterUnavailable .ensured)
  | .secondSample first => (shared,
    if !input.slept then .fallBack .unstableInitialSample .ensured
    else if input.available then calibrate first ⟨shared.counter, input.monotonicNow⟩
    else .fallBack .counterUnavailable .ensured)
  | .beginUpdate origin sample monotonicNs frequency =>
    ({ shared with calibrationSequence := (shared.calibrationSequence + 1) % 2 ^ 32 },
      .storeBase origin sample monotonicNs frequency)
  | .storeBase origin sample monotonicNs frequency =>
    ({ shared with baseCycles := sample.cycles }, .storeNs origin sample monotonicNs frequency)
  | .storeNs origin sample monotonicNs frequency =>
    ({ shared with baseMonotonicNs := monotonicNs }, .storeFrequency origin sample frequency)
  | .storeFrequency origin sample frequency =>
    ({ shared with cyclesPerSecond := frequency }, .endUpdate origin sample frequency)
  | .endUpdate origin sample frequency =>
    -- the plain variables of the validation are those of the thread that initializes or has the
    -- lock
    ({ shared with
        calibrationSequence := (shared.calibrationSequence + 1) % 2 ^ 32
        validationBase := sample },
      match scaleNsToCycles validationIntervalNs frequency with
      | none => .fallBack .conversionOverflow origin.after
      | some interval => .storeNext origin sample interval)
  | .storeNext origin sample interval =>
    ({ shared with nextValidationCycles := satAdd sample.cycles interval }, match origin with
      | .startup => .storeBackend
      | .validate predicted => .unlock predicted)
  | .storeBackend => ({ shared with backend := .cycles }, ensured call)
  | .readCounter => (shared,
    if input.available then .loadSequence shared.counter
    else .fallBack .counterUnavailable .returnMonotonic)
  | .loadSequence cycles => (shared,
    if shared.calibrationSequence % 2 = 1 then .loadSequence cycles
    else .loadBase cycles shared.calibrationSequence)
  | .loadBase cycles sequence => (shared, .loadNs cycles sequence shared.baseCycles)
  | .loadNs cycles sequence base =>
    (shared, .loadFrequency cycles sequence base shared.baseMonotonicNs)
  | .loadFrequency cycles sequence base ns =>
    (shared, .checkSequence cycles sequence base ns shared.cyclesPerSecond)
  | .checkSequence cycles sequence base ns frequency => (shared,
    if shared.calibrationSequence ≠ sequence then .loadSequence cycles
    else predict cycles base ns frequency)
  | .loadNext cycles predicted => (shared,
    if cycles < shared.nextValidationCycles then .reload predicted else .lock cycles predicted)
  | .lock cycles predicted =>
    if shared.validationLock then (shared, .reload predicted)
    else ({ shared with validationLock := true }, .loadLocked cycles predicted)
  | .loadLocked cycles predicted => (shared,
    if shared.backend ≠ .cycles then .unlock predicted else .validate cycles predicted)
  | .validate cycles predicted =>
    (shared, validate shared.validationBase cycles predicted input.monotonicNow)
  | .unlock predicted => ({ shared with validationLock := false }, .reload predicted)
  | .reload predicted => (shared,
    if shared.backend ≠ .cycles then .monotonic else .returned predicted)
  | .monotonic => (shared, .returned input.monotonicNow)
  | .returned value => (shared, match call with
    | .validatedNow => if shared.backend ≠ .cycles then .idle else .compare value
    | .now | .warmup => .idle)
  | .compare predicted => (shared,
    if withinTolerance predicted input.monotonicNow validationToleranceNs then .idle
    else .fallBack .runtimeDrift .done)
  | .fallBack reason after => ({ shared with fallbackReason := reason }, .fallBackBackend after)
  | .fallBackBackend after => ({ shared with backend := .monotonic }, resume call after)

/-! ## Threads -/

structure World where
  shared : Shared := {}
  threads : ℕ → Thread := fun _ => {}

inductive Event where
  | tick (cycles : ℕ)
  | call (thread : ℕ) (call : Call)
  | run (thread : ℕ) (input : Input)

def start : Call → Pc
  | .now | .validatedNow => .loadBackend
  | .warmup => .ensure

def World.step (w : World) : Event → World
  | .tick n => { w with shared := { w.shared with counter := w.shared.counter + n } }
  | .call i call =>
    if (w.threads i).pc = .idle then
      { w with threads := Function.update w.threads i ⟨call, start call⟩ }
    else w
  | .run i input =>
    let moved := advance w.shared (w.threads i).call input (w.threads i).pc
    { shared := moved.1, threads := Function.update w.threads i ⟨(w.threads i).call, moved.2⟩ }

def World.after (events : List Event) : World := Run.final World.step {} events

/-! ## A reader that a validation overtakes -/

/-- The first thread initializes the clock.  The second one reads the counter; before it looks at
the calibration the first one reads a later value, validates the clock and stores that value as
base. -/
def overtaken : List Event :=
  let clock (ns : ℕ) : Input := { monotonicNow := ns }
  let idle (count thread : ℕ) : List Event := List.replicate count (.run thread {})
  ([.tick 1000, .call 0 .now] : List Event) ++ idle 4 0 ++
    ([.run 0 (clock 1000), .tick 1000, .run 0 (clock 2000)] : List Event) ++ idle 7 0 ++
    ([.call 1 .now, .run 1 {}, .run 1 {}, .tick 100000000] : List Event) ++ idle 10 0 ++
    ([.run 0 (clock 100002000)] : List Event) ++ idle 5 0 ++ idle 6 1

theorem overtaken_records_regression :
    (World.after overtaken).shared.fallbackReason = .counterRegression ∧
      (World.after overtaken).shared.counter = 100002000 := by
  decide +kernel

/-! ## What a thread knows -/

inductive Phase where
  | outside
  | initialising
  | past
  deriving DecidableEq, Repr

def Origin.phase : Origin → Phase
  | .startup => .initialising
  | .validate _ => .past

def After.phase : After → Phase
  | .ensured => .initialising
  | .returnMonotonic | .unlock _ | .done => .past

def Pc.phase : Pc → Phase
  | .idle | .loadBackend | .ensure | .claim => .outside
  | .probe | .firstSample | .secondSample _ | .storeBackend => .initialising
  | .beginUpdate origin _ _ _ | .storeBase origin _ _ _ | .storeNs origin _ _ _
  | .storeFrequency origin _ _ | .endUpdate origin _ _ | .storeNext origin _ _ => origin.phase
  | .fallBack _ after | .fallBackBackend after => after.phase
  | .readCounter | .loadSequence _ | .loadBase _ _ | .loadNs _ _ _ | .loadFrequency _ _ _ _
  | .checkSequence _ _ _ _ _ | .loadNext _ _ | .lock _ _ | .loadLocked _ _ | .validate _ _
  | .unlock _ | .reload _ | .monotonic | .returned _ | .compare _ => .past

/-- The counter value that `now` has read and has not yet compared with the calibration. -/
def Pc.pending : Pc → Option ℕ
  | .loadSequence cycles | .loadBase cycles _ | .loadNs cycles _ _ | .loadFrequency cycles _ _ _
  | .checkSequence cycles _ _ _ _ => some cycles
  | _ => none

/-- The counter value that a thread holds and may store as base. -/
def Pc.reading : Pc → Option ℕ
  | .loadSequence cycles | .loadBase cycles _ | .loadNs cycles _ _ | .loadFrequency cycles _ _ _
  | .checkSequence cycles _ _ _ _ | .loadNext cycles _ | .lock cycles _ | .loadLocked cycles _
  | .validate cycles _ => some cycles
  | .beginUpdate _ sample _ _ | .storeBase _ sample _ _ => some sample.cycles
  | _ => none

def Pc.loaded : Pc → Option ℕ
  | .loadNs _ _ base | .loadFrequency _ _ base _ | .checkSequence _ _ base _ _ => some base
  | _ => none

/-- The backends that a thread of the phase leaves room for. -/
def Phase.Allows : Phase → Backend → Prop
  | .outside, _ => True
  | .initialising, backend => backend = .initializing
  | .past, backend => backend = .cycles ∨ backend = .monotonic

/-- What holds of the shared variables while a thread is at `pc`. -/
structure Pc.Fits (shared : Shared) (pc : Pc) : Prop where
  allows : pc.phase.Allows shared.backend
  reading : ∀ cycles, pc.reading = some cycles → cycles ≤ shared.counter
  pending : ∀ cycles, pc.pending = some cycles → shared.baseCycles ≤ cycles
  loaded : ∀ cycles base, pc.pending = some cycles → pc.loaded = some base → base ≤ cycles
  noRegression : ∀ after, pc ≠ .fallBack .counterRegression after

section Fits

variable {shared : Shared} {pc : Pc}

theorem Pc.Fits.settled (hallows : pc.phase.Allows shared.backend)
    (hreading : ∀ cycles, pc.reading = some cycles → cycles ≤ shared.counter)
    (hpending : pc.pending = none) (hreason : ∀ after, pc ≠ .fallBack .counterRegression after) :
    pc.Fits shared := by
  refine ⟨hallows, hreading, ?_, ?_, hreason⟩
  · intro cycles hcycles
    rw [hpending] at hcycles
    cases hcycles
  · intro cycles base hcycles
    rw [hpending] at hcycles
    cases hcycles

theorem Pc.Fits.quiet (hallows : pc.phase.Allows shared.backend) (hreading : pc.reading = none)
    (hpending : pc.pending = none) (hreason : ∀ after, pc ≠ .fallBack .counterRegression after) :
    pc.Fits shared := by
  refine .settled hallows ?_ hpending hreason
  intro cycles hcycles
  rw [hreading] at hcycles
  cases hcycles

theorem fits_ensured (shared : Shared) (call : Call) : (ensured call).Fits shared := by
  cases call
  all_goals exact .quiet trivial rfl rfl nofun

theorem fits_fallBack {reason : FallbackReason} {after : After}
    (hallows : after.phase.Allows shared.backend) (hreason : reason ≠ .counterRegression) :
    (Pc.fallBack reason after).Fits shared := by
  refine .quiet hallows rfl rfl fun other h => hreason ?_
  cases h
  rfl

variable {cycles : ℕ}

theorem fits_predict {base ns frequency : ℕ} (hpast : Phase.past.Allows shared.backend)
    (hcycles : cycles ≤ shared.counter) (hbase : base ≤ cycles) :
    (predict cycles base ns frequency).Fits shared := by
  unfold predict
  rw [if_neg (Nat.not_lt.mpr hbase)]
  split
  · exact fits_fallBack hpast nofun
  · refine .settled hpast ?_ rfl nofun
    rintro _ ⟨⟩
    exact hcycles

theorem fits_validate {validationBase : Sample} {predicted actual : ℕ}
    (hpast : Phase.past.Allows shared.backend) (hcycles : cycles ≤ shared.counter) :
    (validate validationBase cycles predicted actual).Fits shared := by
  unfold validate
  split
  · exact fits_fallBack hpast nofun
  split
  · exact fits_fallBack hpast nofun
  · refine .settled hpast ?_ rfl nofun
    rintro _ ⟨⟩
    exact hcycles

theorem fits_calibrate {first second : Sample} (hinitialising : shared.backend = .initializing)
    (hcycles : second.cycles ≤ shared.counter) : (calibrate first second).Fits shared := by
  unfold calibrate
  split
  · exact fits_fallBack hinitialising nofun
  · refine .settled hinitialising ?_ rfl nofun
    rintro _ ⟨⟩
    exact hcycles

theorem fits_pending (hreading : pc.reading = some cycles) (hpending : pc.pending = some cycles)
    (hpast : pc.phase = .past) (hallows : Phase.past.Allows shared.backend)
    (hcycles : cycles ≤ shared.counter) (hbase : shared.baseCycles ≤ cycles)
    (hloaded : ∀ base, pc.loaded = some base → base ≤ cycles) : pc.Fits shared := by
  constructor
  · rw [hpast]
    exact hallows
  · intro other hother
    rw [hreading] at hother
    cases hother
    exact hcycles
  · intro other hother
    rw [hpending] at hother
    cases hother
    exact hbase
  · intro other base hother
    rw [hpending] at hother
    cases hother
    exact hloaded base
  · rintro after rfl
    cases hpending

theorem advance_fits {call : Call} {input : Input} (h : pc.Fits shared)
    (hbase : shared.baseCycles ≤ shared.counter) :
    (advance shared call input pc).2.Fits (advance shared call input pc).1 := by
  cases pc with
  | idle => exact .quiet trivial rfl rfl nofun
  | loadBackend =>
    simp only [advance]
    split
    · rename_i hbackend
      exact .quiet (.inr hbackend) rfl rfl nofun
    · rename_i hbackend
      exact .quiet (.inl hbackend) rfl rfl nofun
    all_goals exact .quiet trivial rfl rfl nofun
  | ensure =>
    simp only [advance]
    split
    · exact fits_ensured _ _
    · exact fits_ensured _ _
    all_goals exact .quiet trivial rfl rfl nofun
  | claim =>
    simp only [advance]
    split
    · exact .quiet rfl rfl rfl nofun
    · exact .quiet trivial rfl rfl nofun
  | probe =>
    have hinitialising : shared.backend = .initializing := h.allows
    simp only [advance]
    split
    · exact .quiet hinitialising rfl rfl nofun
    all_goals exact fits_fallBack hinitialising nofun
  | firstSample =>
    have hinitialising : shared.backend = .initializing := h.allows
    simp only [advance]
    split
    · exact .quiet hinitialising rfl rfl nofun
    · exact fits_fallBack hinitialising nofun
  | secondSample =>
    have hinitialising : shared.backend = .initializing := h.allows
    simp only [advance]
    split
    · exact fits_fallBack hinitialising nofun
    split
    · exact fits_calibrate hinitialising (Nat.le_refl _)
    · exact fits_fallBack hinitialising nofun
  | beginUpdate => exact .settled h.allows h.reading rfl nofun
  | storeBase | storeNs | storeFrequency | unlock | monotonic | fallBack =>
    exact .quiet h.allows rfl rfl nofun
  | endUpdate origin =>
    simp only [advance]
    split
    · have hafter : origin.after.phase = origin.phase := by cases origin <;> rfl
      refine fits_fallBack ?_ nofun
      rw [hafter]
      exact h.allows
    · exact .quiet h.allows rfl rfl nofun
  | storeNext origin =>
    simp only [advance]
    cases origin with
    | startup | validate => exact .quiet h.allows rfl rfl nofun
  | storeBackend => exact fits_ensured _ _
  | readCounter =>
    have hpast : Phase.past.Allows shared.backend := h.allows
    simp only [advance]
    split
    · exact fits_pending rfl rfl rfl hpast (Nat.le_refl _) hbase nofun
    · exact fits_fallBack hpast nofun
  | loadSequence =>
    simp only [advance]
    split
    · exact h
    · exact fits_pending rfl rfl rfl h.allows (h.reading _ rfl) (h.pending _ rfl) nofun
  | loadBase =>
    refine fits_pending rfl rfl rfl h.allows (h.reading _ rfl) (h.pending _ rfl) ?_
    rintro _ ⟨⟩
    exact h.pending _ rfl
  | loadNs | loadFrequency =>
    refine fits_pending rfl rfl rfl h.allows (h.reading _ rfl) (h.pending _ rfl) ?_
    rintro _ ⟨⟩
    exact h.loaded _ _ rfl rfl
  | checkSequence =>
    simp only [advance]
    split
    · exact fits_pending rfl rfl rfl h.allows (h.reading _ rfl) (h.pending _ rfl) nofun
    · exact fits_predict h.allows (h.reading _ rfl) (h.loaded _ _ rfl rfl)
  | loadNext | lock | loadLocked =>
    simp only [advance]
    split
    · exact .quiet h.allows rfl rfl nofun
    · exact .settled h.allows h.reading rfl nofun
  | validate => exact fits_validate h.allows (h.reading _ rfl)
  | reload =>
    simp only [advance]
    split
    · exact .quiet h.allows rfl rfl nofun
    · exact .quiet h.allows rfl rfl nofun
  | returned =>
    simp only [advance]
    split
    · split
      · exact .quiet trivial rfl rfl nofun
      · exact .quiet h.allows rfl rfl nofun
    all_goals exact .quiet trivial rfl rfl nofun
  | compare =>
    simp only [advance]
    split
    · exact .quiet trivial rfl rfl nofun
    · exact fits_fallBack h.allows nofun
  | fallBackBackend after =>
    simp only [advance]
    cases after with
    | ensured => exact fits_ensured _ _
    | returnMonotonic | unlock => exact .quiet (.inr rfl) rfl rfl nofun
    | done => exact .quiet trivial rfl rfl nofun

structure Effect (shared shared' : Shared) (pc pc' : Pc) : Prop where
  counter : shared'.counter = shared.counter
  base : shared'.baseCycles = shared.baseCycles ∨ ∃ origin sample monotonicNs frequency,
    pc = .storeBase origin sample monotonicNs frequency ∧ shared'.baseCycles = sample.cycles
  reason : shared'.fallbackReason = shared.fallbackReason ∨ ∃ after,
    pc = .fallBack shared'.fallbackReason after
  backend : shared'.backend = shared.backend ∨
    shared.backend = .uninitialized ∧ shared'.backend = .initializing ∨
    pc.phase ≠ .outside ∧ (shared'.backend = .cycles ∨ shared'.backend = .monotonic)
  entered : pc'.phase = .initialising → pc.phase = .initialising ∨ shared.backend = .uninitialized

theorem Effect.none {shared' : Shared} {pc' : Pc} (hcounter : shared'.counter = shared.counter)
    (hbase : shared'.baseCycles = shared.baseCycles)
    (hreason : shared'.fallbackReason = shared.fallbackReason)
    (hbackend : shared'.backend = shared.backend)
    (hphase : pc'.phase = .initialising → pc.phase = .initialising) :
    Effect shared shared' pc pc' :=
  ⟨hcounter, .inl hbase, .inl hreason, .inl hbackend, fun h => .inl (hphase h)⟩

theorem phase_ensured (call : Call) : (ensured call).phase = .outside := by cases call <;> rfl

theorem advance_effect (shared : Shared) (call : Call) (input : Input) (pc : Pc) :
    Effect shared (advance shared call input pc).1 pc (advance shared call input pc).2 := by
  cases pc with
  | claim =>
    simp only [advance]
    split
    · rename_i hbackend
      exact ⟨rfl, .inl rfl, .inl rfl, .inr (.inl ⟨hbackend, rfl⟩), fun _ => .inr hbackend⟩
    · exact .none rfl rfl rfl rfl nofun
  | storeBase => exact ⟨rfl, .inr ⟨_, _, _, _, rfl, rfl⟩, .inl rfl, .inl rfl, fun h => .inl h⟩
  | storeBackend =>
    refine ⟨rfl, .inl rfl, .inl rfl, .inr (.inr ⟨nofun, .inl rfl⟩), fun _ => .inl rfl⟩
  | fallBack reason after => exact ⟨rfl, .inl rfl, .inr ⟨after, rfl⟩, .inl rfl, fun h => .inl h⟩
  | fallBackBackend after =>
    refine ⟨rfl, .inl rfl, .inl rfl, .inr (.inr ⟨?_, .inr rfl⟩), ?_⟩
    · cases after <;> nofun
    · intro h
      cases after with
      | ensured => exact .inl rfl
      | returnMonotonic | unlock | done => cases h
  | probe | firstSample | secondSample => exact .none rfl rfl rfl rfl fun _ => rfl
  | beginUpdate | storeNs | storeFrequency => exact .none rfl rfl rfl rfl id
  | endUpdate origin =>
    refine .none rfl rfl rfl rfl fun h => ?_
    simp only [advance] at h
    split at h
    · cases origin with
      | startup => rfl
      | validate => cases h
    · exact h
  | storeNext origin =>
    refine .none rfl rfl rfl rfl fun h => ?_
    cases origin with
    | startup => rfl
    | validate => cases h
  | lock =>
    simp only [advance]
    split <;> exact .none rfl rfl rfl rfl nofun
  | idle | loadBase | loadNs | loadFrequency | unlock | monotonic =>
    exact .none rfl rfl rfl rfl nofun
  | ensure =>
    refine .none rfl rfl rfl rfl fun h => ?_
    have hensured := phase_ensured call
    simp only [advance] at h
    split at h <;> simp_all [Pc.phase]
  | loadBackend | readCounter | loadSequence | loadNext | loadLocked | reload | returned | compare
  | checkSequence | validate =>
    refine .none rfl rfl rfl rfl fun h => ?_
    simp only [advance, predict, FastClock.validate] at h
    (repeat' split at h) <;> cases h

/-- What a thread knows holds after the step of another thread, unless that one stores a base that
is larger than the pending value. -/
theorem Pc.Fits.interfere {shared' : Shared} {pc' other : Pc}
    (heffect : Effect shared shared' pc pc')
    (hpc : pc.Fits shared) (h : other.Fits shared)
    (hone : ¬(pc.phase = .initialising ∧ other.phase = .initialising))
    (hbase : ∀ origin sample monotonicNs frequency cycles,
      pc = .storeBase origin sample monotonicNs frequency → other.pending = some cycles →
        sample.cycles ≤ cycles) : other.Fits shared' := by
  refine ⟨?_, ?_, ?_, h.loaded, h.noRegression⟩
  · have hallows := h.allows
    have hallows' := hpc.allows
    rcases heffect.backend with hsame | ⟨hbefore, -⟩ | ⟨hinside, hafter⟩
    · rw [hsame]
      exact hallows
    · rw [hbefore] at hallows
      cases hphase : other.phase <;> simp_all [Phase.Allows]
    · cases hphase : other.phase with
      | outside => trivial
      | past => exact hafter
      | initialising =>
        rw [hphase] at hallows
        cases hphase' : pc.phase <;> simp_all [Phase.Allows]
  · rw [heffect.counter]
    exact h.reading
  · intro cycles hcycles
    rcases heffect.base with hsame | ⟨origin, sample, monotonicNs, frequency, hstore, hstored⟩
    · rw [hsame]
      exact h.pending cycles hcycles
    · rw [hstored]
      exact hbase origin sample monotonicNs frequency cycles hstore hcycles

end Fits

/-! ## All threads -/

/-- A validation stores its counter value as base only while no thread has a smaller value pending.
-/
def Orderly (w : World) : Event → Prop
  | .run i _ => ∀ predicted sample monotonicNs frequency,
    (w.threads i).pc = .storeBase (.validate predicted) sample monotonicNs frequency →
      ∀ j cycles, (w.threads j).pc.pending = some cycles → sample.cycles ≤ cycles
  | _ => True

structure World.Sound (w : World) : Prop where
  base : w.shared.baseCycles ≤ w.shared.counter
  reason : w.shared.fallbackReason ≠ .counterRegression
  fits : ∀ i, (w.threads i).pc.Fits w.shared
  one : ∀ i j, (w.threads i).pc.phase = .initialising → (w.threads j).pc.phase = .initialising →
    i = j

theorem initial_sound : ({} : World).Sound :=
  ⟨Nat.le_refl _, nofun, fun _ => .quiet trivial rfl rfl nofun, nofun⟩

theorem pending_past {pc : Pc} {cycles : ℕ} (h : pc.pending = some cycles) : pc.phase = .past := by
  cases pc <;> first
    | rfl
    | cases h

variable {w : World}

theorem World.Sound.tick (h : w.Sound) (cycles : ℕ) : (w.step (.tick cycles)).Sound := by
  refine ⟨Nat.le_add_right_of_le h.base, h.reason, fun i => ?_, h.one⟩
  have hfits := h.fits i
  exact ⟨hfits.allows, fun c hc => Nat.le_add_right_of_le (hfits.reading c hc), hfits.pending,
    hfits.loaded, hfits.noRegression⟩

theorem start_outside (call : Call) : (start call).phase = .outside := by cases call <;> rfl

theorem fits_start (shared : Shared) (call : Call) : (start call).Fits shared := by
  cases call
  all_goals exact .quiet trivial rfl rfl nofun

theorem World.Sound.call (h : w.Sound) (i : ℕ) (call : Call) : (w.step (.call i call)).Sound := by
  simp only [World.step]
  split
  · refine ⟨h.base, h.reason, fun j => ?_, fun j k hj hk => ?_⟩
    · by_cases hji : j = i
      · subst hji
        simpa using fits_start w.shared call
      · simpa [hji] using h.fits j
    · have hother : ∀ l, (Function.update w.threads i ⟨call, start call⟩ l).pc.phase =
        .initialising →
          (w.threads l).pc.phase = .initialising := by
        intro l hl
        by_cases hli : l = i
        · subst hli
          simp [start_outside] at hl
        · simpa [hli] using hl
      exact h.one j k (hother j hj) (hother k hk)
  · exact h

theorem World.Sound.stores_after (h : w.Sound) {i j : ℕ} {input : Input}
    (horderly : Orderly w (.run i input)) {origin : Origin} {sample : Sample}
    {monotonicNs frequency cycles : ℕ}
    (hstore : (w.threads i).pc = .storeBase origin sample monotonicNs frequency)
    (hpending : (w.threads j).pc.pending = some cycles) : sample.cycles ≤ cycles := by
  cases origin with
  | validate predicted =>
    exact horderly predicted sample monotonicNs frequency hstore j cycles hpending
  | startup =>
    have hinitialising := (h.fits i).allows
    have hpast := (h.fits j).allows
    rw [hstore] at hinitialising
    rw [pending_past hpending] at hpast
    have hbackend : w.shared.backend = .initializing := hinitialising
    rw [hbackend] at hpast
    rcases hpast with hpast | hpast <;> cases hpast

theorem World.Sound.run (h : w.Sound) (i : ℕ) (input : Input)
    (horderly : Orderly w (.run i input)) :
    (w.step (.run i input)).Sound := by
  have hfits := h.fits i
  have heffect := advance_effect w.shared (w.threads i).call input (w.threads i).pc
  have hmoved : (advance w.shared (w.threads i).call input (w.threads i).pc).2.Fits
      (advance w.shared (w.threads i).call input (w.threads i).pc).1 := advance_fits hfits h.base
  simp only [World.step]
  generalize advance w.shared (w.threads i).call input (w.threads i).pc = moved at heffect hmoved ⊢
  obtain ⟨shared', pc'⟩ := moved
  simp only at heffect hmoved ⊢
  refine ⟨?_, ?_, fun j => ?_, fun j k hj hk => ?_⟩
  · rw [heffect.counter]
    rcases heffect.base with hsame | ⟨origin, sample, monotonicNs, frequency, hstore, hstored⟩
    · rw [hsame]
      exact h.base
    · rw [hstored]
      rw [hstore] at hfits
      exact hfits.reading _ rfl
  · rcases heffect.reason with hsame | ⟨after, hfallBack⟩
    · rw [hsame]
      exact h.reason
    · intro hreason
      rw [hreason] at hfallBack
      exact hfits.noRegression after hfallBack
  · by_cases hji : j = i
    · subst hji
      simpa using hmoved
    · dsimp only
      rw [Function.update_of_ne hji]
      refine hfits.interfere heffect (h.fits j) ?_ ?_
      · rintro ⟨hi, hj⟩
        exact hji (h.one j i hj hi)
      · intro origin sample monotonicNs frequency cycles hstore hpending
        exact h.stores_after horderly hstore hpending
  · -- a thread that enters the initialization finds the backend uninitialized, so it is alone
    have halone : ∀ l, l ≠ i → pc'.phase = .initialising →
        (w.threads l).pc.phase ≠ .initialising := by
      intro l hli hentered hl
      rcases heffect.entered hentered with hbefore | hbackend
      · exact hli (h.one l i hl hbefore)
      · have hallows := (h.fits l).allows
        rw [hl, hbackend] at hallows
        cases hallows
    dsimp only at hj hk
    by_cases hji : j = i
    · by_cases hki : k = i
      · rw [hji, hki]
      · subst hji
        rw [Function.update_self] at hj
        rw [Function.update_of_ne hki] at hk
        exact absurd hk (halone k hki hj)
    · rw [Function.update_of_ne hji] at hj
      by_cases hki : k = i
      · subst hki
        rw [Function.update_self] at hk
        exact absurd hj (halone j hji hk)
      · rw [Function.update_of_ne hki] at hk
        exact h.one j k hj hk

theorem World.Sound.step {event : Event} (h : w.Sound) (horderly : Orderly w event) :
    (w.step event).Sound := by
  cases event with
  | tick cycles => exact h.tick cycles
  | call i call => exact h.call i call
  | run i input => exact h.run i input horderly

/-- If every validation stores its base while no smaller counter value is pending, no call records
that the counter went backwards. -/
theorem no_counter_regression (events : List Event)
    (horderly : Run.Meets World.step Orderly {} events) :
    (World.after events).shared.fallbackReason ≠ .counterRegression := by
  have hsound : (World.after events).Sound :=
    Run.invariant (I := World.Sound) (fun w event h hevent => h.step hevent) initial_sound horderly
  exact hsound.reason

/-! ## One thread -/

def Event.OfThread (i : ℕ) : Event → Prop
  | .tick _ => True
  | .call j _ | .run j _ => j = i

instance (i : ℕ) : DecidablePred (Event.OfThread i)
  | .tick _ => isTrue trivial
  | .call j _ => inferInstanceAs (Decidable (j = i))
  | .run j _ => inferInstanceAs (Decidable (j = i))

theorem meets_orderly_of_thread {i : ℕ} {events : List Event}
    (h : ∀ event ∈ events, event.OfThread i) :
    Run.Meets World.step Orderly {} events := by
  suffices hothers : ∀ w : World, (∀ j, j ≠ i → (w.threads j).pc = .idle) →
      Run.Meets World.step Orderly w events from hothers {} fun _ _ => rfl
  intro w hw
  induction events generalizing w with
  | nil => trivial
  | cons event rest ih =>
    have hevent := h event List.mem_cons_self
    refine ⟨?_, ih (fun other hmem => h other (List.mem_cons_of_mem _ hmem)) _ fun j hji => ?_⟩
    · cases event with
      | tick => trivial
      | call => trivial
      | run j =>
        intro predicted sample monotonicNs frequency hstore k cycles hpending
        by_cases hki : k = i
        · obtain rfl : j = i := hevent
          rw [hki, hstore] at hpending
          cases hpending
        · rw [hw k hki] at hpending
          cases hpending
    · cases event with
      | tick => exact hw j hji
      | call k =>
        obtain rfl : k = i := hevent
        simp only [World.step]
        split
        · simpa [hji] using hw j hji
        · exact hw j hji
      | run k =>
        obtain rfl : k = i := hevent
        simpa [World.step, hji] using hw j hji

/-- The first thread of `overtaken` without the second one. -/
theorem no_counter_regression_alone :
    (World.after (overtaken.filter (Event.OfThread 0 ·))).shared.fallbackReason ≠
      .counterRegression := by
  refine no_counter_regression _ (meets_orderly_of_thread (i := 0) fun event hmem => ?_)
  exact of_decide_eq_true (List.mem_filter.mp hmem).2

end GrpcLite.FastClock
