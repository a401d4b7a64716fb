import GrpcLite.Clock.FastClock
import Mathlib.Data.List.Sort
import Mathlib.Logic.Relation

/-!
# The fast clock, one call at a time

Calls of `now` that do not overlap find the calibration complete and the lock free, so a call is one
step.  A validation moves the base of the calibration to the value it predicted, not to the one it
measured.
-/

namespace GrpcLite.FastClock

/-- What a call takes from outside: the platform, the samples of an initialization, the counter, and
the monotonic clock when the call validates and when it returns. -/
structure Reading where
  platform : Platform := .stable
  slept : Bool := true
  first : Option (UInt64 × UInt64)
  second : Option (UInt64 × UInt64)
  cycles : Option UInt64
  validation : UInt64
  monotonic : UInt64

def Sample.of (sample : UInt64 × UInt64) : Sample := ⟨sample.1.toNat, sample.2.toNat⟩

def fallBack (reason : FallbackReason) (s : Shared) : Shared :=
  { s with fallbackReason := reason, backend := .monotonic }

def updateCalibration (cycles monotonicNs frequency : ℕ) (s : Shared) : Shared :=
  { s with
    calibrationSequence := (s.calibrationSequence + 2) % 2 ^ 32
    baseCycles := cycles
    baseMonotonicNs := monotonicNs
    cyclesPerSecond := frequency }

/-- What `initialize` and `validateIfDue` do with a new frequency; `backend` is the backend of a
success. -/
def recalibrate (sample : Sample) (monotonicNs frequency : ℕ) (backend : Backend) (s : Shared) :
    Shared :=
  let s := { updateCalibration sample.cycles monotonicNs frequency s with validationBase := sample }
  match scaleNsToCycles validationIntervalNs frequency with
  | none => fallBack .conversionOverflow s
  | some interval =>
    { s with nextValidationCycles := satAdd sample.cycles interval, backend := backend }

def initialise (r : Reading) (s : Shared) : Shared :=
  match r.platform with
  | .unavailable => fallBack .counterUnavailable s
  | .unsupported => fallBack .unsupportedImplementation s
  | .unstable => fallBack .unstablePlatform s
  | .stable =>
    match r.first with
    | none => fallBack .counterUnavailable s
    | some first =>
      if !r.slept then fallBack .unstableInitialSample s
      else
        match r.second with
        | none => fallBack .counterUnavailable s
        | some second =>
          match estimateFrequency (.of first) (.of second) with
          | none => fallBack .invalidFrequency s
          | some frequency => recalibrate (.of second) second.2.toNat frequency .cycles s

def ensureInitialized (r : Reading) (s : Shared) : Shared :=
  if s.backend = .uninitialized then initialise r s else s

def predictNs (s : Shared) (cycles : ℕ) : Except FallbackReason ℕ :=
  if cycles < s.baseCycles then .error .counterRegression
  else
    match (scaleCyclesToNs (cycles - s.baseCycles) s.cyclesPerSecond).bind
        (checkedAdd s.baseMonotonicNs) with
    | none => .error .conversionOverflow
    | some predicted => .ok predicted

def validateIfDue (cycles predicted actual : ℕ) (s : Shared) : Shared :=
  if cycles < s.nextValidationCycles then s
  else if !withinTolerance predicted actual validationToleranceNs then fallBack .runtimeDrift s
  else
    match estimateFrequency s.validationBase ⟨cycles, actual⟩ with
    | none => fallBack .invalidFrequency s
    | some frequency => recalibrate ⟨cycles, actual⟩ predicted frequency s.backend s

def now (r : Reading) (s : Shared) : Shared × ℕ :=
  let s := ensureInitialized r s
  if s.backend ≠ .cycles then (s, r.monotonic.toNat)
  else
    match r.cycles with
    | none => (fallBack .counterUnavailable s, r.monotonic.toNat)
    | some cycles =>
      match predictNs s cycles.toNat with
      | .error reason => (fallBack reason s, r.monotonic.toNat)
      | .ok predicted =>
        let s := validateIfDue cycles.toNat predicted r.validation.toNat s
        (s, if s.backend ≠ .cycles then r.monotonic.toNat else predicted)

def afterCalls (s : Shared) (readings : List Reading) : Shared :=
  Run.final (fun s r => (now r s).1) s readings

/-- The values that are returned while the backend stays on the cycle counter. -/
def values : Shared → List Reading → List ℕ
  | _, [] => []
  | s, r :: rest =>
    (if (now r s).1.backend = .cycles then [(now r s).2] else []) ++ values (now r s).1 rest

/-- The values of the counter that a call may read, in this order. -/
def Reading.counter (r : Reading) : List ℕ :=
  (r.first.toList ++ r.second.toList).map (·.1.toNat) ++ r.cycles.toList.map (·.toNat)

/-! ## A call -/

def Shared.at (s : Shared) (cycles : ℕ) : ℕ :=
  s.baseMonotonicNs + (cycles - s.baseCycles) * nsPerS / s.cyclesPerSecond

variable {s : Shared} {r : Reading} {cycles predicted counter value : ℕ}

theorem predictNs_eq_ok (hok : predictNs s cycles = .ok predicted) :
    s.baseCycles ≤ cycles ∧ s.cyclesPerSecond ≠ 0 ∧ predicted = s.at cycles := by
  unfold predictNs at hok
  split at hok
  · cases hok
  · next hbase =>
    split at hok
    · cases hok
    · next hsum =>
      cases hok
      obtain ⟨elapsed, hscaled, hadded⟩ := Option.bind_eq_some_iff.1 hsum
      unfold scaleCyclesToNs castU64 at hscaled
      split at hscaled
      · cases hscaled
      · next hfrequency =>
        split at hscaled
        · cases hscaled
          exact ⟨Nat.not_lt.1 hbase, hfrequency, checkedAdd_eq_some hadded⟩
        · cases hscaled

theorem recalibrate_at {sample : Sample} {ns frequency : ℕ} {backend : Backend} :
    (recalibrate sample ns frequency backend s).baseCycles = sample.cycles ∧
      (recalibrate sample ns frequency backend s).at sample.cycles = ns := by
  have hzero : (sample.cycles - sample.cycles) * nsPerS / frequency = 0 := by simp
  unfold recalibrate updateCalibration fallBack Shared.at
  grind

theorem validateIfDue_at {actual : ℕ} (hbase : s.baseCycles ≤ cycles)
    (hpredicted : predicted = s.at cycles) :
    (validateIfDue cycles predicted actual s).baseCycles ≤ cycles ∧
      (validateIfDue cycles predicted actual s).at cycles = predicted := by
  have hfallBack (reason : FallbackReason) : (fallBack reason s).at cycles = s.at cycles := rfl
  have hnew (frequency : ℕ) := @recalibrate_at s ⟨cycles, actual⟩ predicted frequency s.backend
  unfold validateIfDue
  grind [fallBack]

theorem now_cycles (hcycles : (now r s).1.backend = .cycles) :
    ∃ cycles, r.cycles = some cycles ∧ (ensureInitialized r s).backend = .cycles ∧
      (ensureInitialized r s).baseCycles ≤ cycles.toNat ∧
      (ensureInitialized r s).cyclesPerSecond ≠ 0 ∧
      (now r s).2 = (ensureInitialized r s).at cycles.toNat ∧
      (now r s).1.baseCycles ≤ cycles.toNat ∧ (now r s).1.at cycles.toNat = (now r s).2 := by
  unfold now at hcycles ⊢
  grind [predictNs_eq_ok, validateIfDue_at, fallBack]

theorem Shared.at_mono (s : Shared) {c d : ℕ} (hle : c ≤ d) : s.at c ≤ s.at d := by
  have hscaled : (c - s.baseCycles) * nsPerS ≤ (d - s.baseCycles) * nsPerS :=
    Nat.mul_le_mul_right _ (Nat.sub_le_sub_right hle _)
  exact Nat.add_le_add_left (Nat.div_le_div_right hscaled) _

/-! ## A sequence of calls -/

/-- The last value is no larger than what the calibration gives for the last reading. -/
structure Kept (s : Shared) (counter value : ℕ) : Prop where
  fresh : s.backend = .uninitialized → value = 0
  value_le : s.backend = .cycles → value ≤ s.at counter

theorem recalibrate_backend {sample : Sample} {ns frequency : ℕ} {backend : Backend} :
    (recalibrate sample ns frequency backend s).backend = .monotonic ∨
      (recalibrate sample ns frequency backend s).backend = backend := by
  unfold recalibrate
  dsimp only
  split
  · exact .inl rfl
  · exact .inr rfl

theorem fallBack_backend (reason : FallbackReason) (s : Shared) :
    (fallBack reason s).backend = .monotonic := rfl

theorem ensureInitialized_initialized (r : Reading) (s : Shared) :
    (ensureInitialized r s).backend ≠ .uninitialized := by
  unfold ensureInitialized initialise
  grind [recalibrate_backend, fallBack_backend]

theorem now_initialized (r : Reading) (s : Shared) : (now r s).1.backend ≠ .uninitialized := by
  have hensured := ensureInitialized_initialized r s
  unfold now validateIfDue
  grind [recalibrate_backend, fallBack_backend]

theorem Kept.le_now (h : Kept s counter value) {cycles : UInt64} (hle : counter ≤ cycles.toNat)
    (hbackend : (ensureInitialized r s).backend = .cycles)
    (hvalue : (now r s).2 = (ensureInitialized r s).at cycles.toNat) : value ≤ (now r s).2 := by
  rw [hvalue]
  by_cases hfresh : s.backend = .uninitialized
  · rw [h.fresh hfresh]
    exact Nat.zero_le _
  · rw [ensureInitialized, if_neg hfresh] at hbackend ⊢
    exact (h.value_le hbackend).trans (s.at_mono hle)

theorem Kept.values_pairwise (h : Kept s counter value) {readings : List Reading}
    (hcounter : (counter :: readings.flatMap Reading.counter).Pairwise (· ≤ ·)) :
    (value :: values s readings).Pairwise (· ≤ ·) := by
  induction readings generalizing s counter value with
  | nil => exact List.pairwise_singleton _ _
  | cons r rest ih =>
    rw [List.flatMap_cons, List.pairwise_cons, List.pairwise_append] at hcounter
    obtain ⟨hfirst, -, hrest, hlater⟩ := hcounter
    by_cases hcycles : (now r s).1.backend = .cycles
    · obtain ⟨cycles, hread, hbackend, -, -, hvalue, -, hat⟩ := now_cycles hcycles
      have hmem : cycles.toNat ∈ r.counter := by simp [Reading.counter, hread]
      have hle := h.le_now (hfirst _ (List.mem_append_left _ hmem)) hbackend hvalue
      have hnext : Kept (now r s).1 cycles.toNat (now r s).2 :=
        ⟨fun hno => absurd hno (now_initialized r s), fun _ => hat.ge⟩
      have hvalues := ih hnext (List.pairwise_cons.2 ⟨hlater _ hmem, hrest⟩)
      simp only [values, hcycles, if_true, List.singleton_append]
      refine List.pairwise_cons.2 ⟨fun v hv => ?_, hvalues⟩
      rcases List.mem_cons.1 hv with rfl | hv
      · exact hle
      · exact hle.trans ((List.pairwise_cons.1 hvalues).1 v hv)
    · have hnext : Kept (now r s).1 counter value :=
        ⟨fun hno => absurd hno (now_initialized r s), fun hyes => absurd hyes hcycles⟩
      simp only [values, hcycles, if_false, List.nil_append]
      exact ih hnext
        (List.pairwise_cons.2 ⟨fun c hc => hfirst c (List.mem_append_right _ hc), hrest⟩)

/-- Calls that do not overlap return values that never go backwards, whatever the validations
measure, and each is what the last calibration gives for the counter. -/
theorem now_monotone_across_recalibration (readings : List Reading)
    (hcounter : (readings.flatMap Reading.counter).Pairwise (· ≤ ·)) :
    (values {} readings).Pairwise (· ≤ ·) ∧
    ∀ before r after, readings = before ++ r :: after →
      let s := ensureInitialized r (afterCalls {} before)
      (now r (afterCalls {} before)).1.backend = .cycles →
      ∃ cycles : UInt64, r.cycles = some cycles ∧ s.baseCycles ≤ cycles.toNat ∧
        s.cyclesPerSecond ≠ 0 ∧ (cycles.toNat - s.baseCycles) * nsPerS < 2 ^ 128 ∧
        (now r (afterCalls {} before)).2 =
          s.baseMonotonicNs + (cycles.toNat - s.baseCycles) * nsPerS / s.cyclesPerSecond := by
  refine ⟨?_, fun before r after _ hcycles => ?_⟩
  · have hstart : Kept {} 0 0 := ⟨fun _ => rfl, nofun⟩
    have hzero : (0 :: readings.flatMap Reading.counter).Pairwise (· ≤ ·) :=
      List.pairwise_cons.2 ⟨fun c _ => Nat.zero_le c, hcounter⟩
    exact (List.pairwise_cons.1 (hstart.values_pairwise hzero)).2
  · obtain ⟨cycles, hread, -, hbase, hfrequency, hvalue, -⟩ := now_cycles hcycles
    refine ⟨cycles, hread, hbase, hfrequency, ?_, hvalue⟩
    have := cycles.toNat_lt
    unfold nsPerS
    omega

/-- The second call validates: the clock is 1 ms ahead of the prediction, and the third call has
the lower frequency that this gives. -/
def threeCalls : List Reading :=
  [{ first := some (1000, 1000), second := some (2000, 2000), cycles := some 3000,
      validation := 0, monotonic := 0 },
    { first := none, second := none, cycles := some 100002000, validation := 101002000,
      monotonic := 101002000 },
    { first := none, second := none, cycles := some 150002000, validation := 0, monotonic := 0 }]

theorem now_monotone_across_recalibration_threeCalls :
    values {} threeCalls = [3000, 100002000, 150502000] ∧
      (afterCalls {} (threeCalls.take 1)).cyclesPerSecond = 1000000000 ∧
      (afterCalls {} threeCalls).cyclesPerSecond = 990099009 ∧
      (values {} threeCalls).Pairwise (· ≤ ·) :=
  ⟨by decide, by decide, by decide, (now_monotone_across_recalibration threeCalls (by decide)).1⟩

/-! ## Calls that run alone -/

/-- The lock and the counter, which a sequential call does not look at. -/
def Shared.during (s : Shared) (locked : Bool) (counter : ℕ) : Shared :=
  { s with validationLock := locked, counter := counter }

/-- What a thread inside `now` does while the other ones rest; the counter goes on. -/
inductive Moves : Shared × Pc → Shared × Pc → Prop
  | tick {s : Shared} (pc : Pc) (n : ℕ) : Moves (s, pc) ({ s with counter := s.counter + n }, pc)
  | run {s : Shared} {pc : Pc} (input : Input) : Moves (s, pc) (advance s .now input pc)

abbrev Runs := Relation.ReflTransGen Moves

variable {pc : Pc} {x y : Shared × Pc} {locked : Bool} {c d : ℕ}

theorem Runs.step (input : Input) (h : Runs (advance s .now input pc) x) : Runs (s, pc) x :=
  .head (.run input) h

theorem Runs.to (input : Input) (next : Pc) (hstays : (advance s .now input pc).1 = s)
    (hnext : (advance s .now input pc).2 = next) (h : Runs (s, next) x) : Runs (s, pc) x :=
  .step input (by rwa [show advance s .now input pc = (s, next) from Prod.ext hstays hnext])

theorem Runs.wait (hle : c ≤ d) (h : Runs (s.during locked d, pc) x) :
    Runs (s.during locked c, pc) x := by
  have htick := Moves.tick (s := s.during locked c) pc (d - c)
  rw [show (s.during locked c).counter = c from rfl, Nat.add_sub_cancel' hle] at htick
  exact .head htick h

theorem fallBack_runs (reason : FallbackReason) (after : After) (hle : c ≤ d) :
    Runs (s.during locked c, .fallBack reason after)
      ((fallBack reason s).during locked d, resume .now after) :=
  .wait hle (.step {} (.step {} .refl))

theorem recalibrate_runs (s : Shared) (origin : Origin) (sample : Sample) (ns frequency : ℕ)
    {old new : Backend} (hnew : origin = .startup ∧ new = .cycles ∨
      ∃ predicted, origin = .validate predicted ∧ new = old) (hle : c ≤ d) :
    Runs ({ s with backend := old }.during locked c, .beginUpdate origin sample ns frequency)
      ((recalibrate sample ns frequency new s).during locked d, resume .now origin.after) := by
  have hsequence : ((s.calibrationSequence + 1) % 2 ^ 32 + 1) % 2 ^ 32 =
      (s.calibrationSequence + 2) % 2 ^ 32 := by omega
  refine .wait hle (.step {} (.step {} (.step {} (.step {} (.step {} ?_)))))
  unfold recalibrate updateCalibration
  cases hinterval : scaleNsToCycles validationIntervalNs frequency with
  | none =>
    simp only [advance, Shared.during, hinterval, hsequence]
    exact .step {} (.step {} .refl)
  | some interval =>
    simp only [advance, Shared.during, hinterval, hsequence]
    rcases hnew with ⟨rfl, rfl⟩ | ⟨predicted, rfl, rfl⟩
    · exact .step {} (.step {} .refl)
    · exact .step {} .refl

theorem initialise_runs (hle : (c ::
      (r.first.toList ++ r.second.toList).map (·.1.toNat) ++ [d]).Pairwise (· ≤ ·)) :
    Runs ({ s with backend := .initializing }.during locked c, .probe)
      ((initialise r s).during locked d, .loadBackend) := by
  have hd : c ≤ d := (List.pairwise_cons.mp hle).1 d (by simp)
  unfold initialise
  cases r.platform with
  | unavailable => exact .step { platform := .unavailable } (fallBack_runs _ _ hd)
  | unsupported => exact .step { platform := .unsupported } (fallBack_runs _ _ hd)
  | unstable => exact .step { platform := .unstable } (fallBack_runs _ _ hd)
  | stable =>
    refine .step {} ?_
    cases hfirst : r.first with
    | none => exact .step { available := false } (fallBack_runs _ _ hd)
    | some first =>
      simp only [hfirst, Option.toList_some, List.map_cons, List.cons_append, List.nil_append,
        List.pairwise_cons, List.mem_cons, forall_eq_or_imp] at hle
      obtain ⟨⟨hle₁, -⟩, hlater, hle⟩ := hle
      have hd : first.1.toNat ≤ d := hlater d (by simp)
      refine .wait hle₁ (.step { monotonicNow := first.2.toNat } ?_)
      cases r.slept with
      | false => exact .step { slept := false } (fallBack_runs _ _ hd)
      | true =>
        cases hsecond : r.second with
        | none => exact .step { available := false } (fallBack_runs _ _ hd)
        | some second =>
          have hle₂ : first.1.toNat ≤ second.1.toNat := hlater _ (by simp [hsecond])
          have hd : second.1.toNat ≤ d := by simpa [hsecond] using hle
          refine .wait hle₂ (.to { monotonicNow := second.2.toNat }
            (calibrate (.of first) (.of second)) rfl rfl ?_)
          unfold calibrate
          dsimp only
          cases estimateFrequency (.of first) (.of second) with
          | none => exact fallBack_runs _ _ hd
          | some frequency =>
            exact recalibrate_runs s .startup (.of second) _ frequency (.inl ⟨rfl, rfl⟩) hd

theorem validateIfDue_runs (hbackend : s.backend = .cycles) (predicted actual : ℕ) :
    Runs (s.during false c, .loadNext cycles predicted)
      ((validateIfDue cycles predicted actual s).during false c, .reload predicted) := by
  unfold validateIfDue
  by_cases hdue : cycles < s.nextValidationCycles
  · rw [if_pos hdue]
    exact .to {} (.reload predicted) rfl (if_pos hdue) .refl
  rw [if_neg hdue]
  refine .to {} (.lock cycles predicted) rfl (if_neg hdue) (Runs.step {} ?_)
  refine Runs.to {} (.validate cycles predicted) rfl (if_neg (not_not.mpr hbackend)) ?_
  have hunlock {t : Shared} : Runs (t.during true c, .unlock predicted)
      (t.during false c, .reload predicted) := .step {} .refl
  refine .trans (Runs.step { monotonicNow := actual } ?_) hunlock
  change Runs (s.during true c, validate s.validationBase cycles predicted actual) _
  unfold validate
  split
  · exact fallBack_runs _ (.unlock predicted) le_rfl
  cases estimateFrequency s.validationBase ⟨cycles, actual⟩ with
  | none => exact fallBack_runs _ (.unlock predicted) le_rfl
  | some frequency =>
    exact recalibrate_runs s (.validate predicted) ⟨cycles, actual⟩ predicted frequency
      (.inr ⟨predicted, rfl, rfl⟩) le_rfl

theorem predict_cases (s : Shared) (cycles : ℕ) :
    (∃ reason, predictNs s cycles = .error reason ∧ predict cycles s.baseCycles s.baseMonotonicNs
      s.cyclesPerSecond = .fallBack reason .returnMonotonic) ∨
    ∃ predicted, predictNs s cycles = .ok predicted ∧ predict cycles s.baseCycles s.baseMonotonicNs
      s.cyclesPerSecond = .loadNext cycles predicted := by
  unfold predict predictNs
  split
  · exact .inl ⟨_, rfl, rfl⟩
  cases (scaleCyclesToNs (cycles - s.baseCycles) s.cyclesPerSecond).bind
    (checkedAdd s.baseMonotonicNs) with
  | none => exact .inl ⟨_, rfl, rfl⟩
  | some => exact .inr ⟨_, rfl, rfl⟩

theorem ensured_runs (hbackend : (ensureInitialized r s).backend = .cycles ∨
      (ensureInitialized r s).backend = .monotonic)
    (heven : (ensureInitialized r s).calibrationSequence % 2 = 0)
    (hle : (c :: (r.cycles.toList.map (·.toNat) ++ [d])).Pairwise (· ≤ ·)) :
    Runs ((ensureInitialized r s).during false c, .loadBackend)
      ((now r s).1.during false d, .returned (now r s).2) := by
  unfold now
  generalize ensureInitialized r s = s at hbackend heven ⊢
  have hmonotonic {t : Shared} {e : ℕ} (hle : e ≤ d) : Runs (t.during false e, .monotonic)
      (t.during false d, .returned r.monotonic.toNat) :=
    .wait hle (.step { monotonicNow := r.monotonic.toNat } .refl)
  have hd : c ≤ d := (List.pairwise_cons.1 hle).1 d (by simp)
  rcases hbackend with hbackend | hbackend
  rotate_left
  · simp only [hbackend]
    exact .to {} .monotonic rfl (by simp [advance, Shared.during, hbackend]) (hmonotonic hd)
  simp only [hbackend, ne_eq, not_true, if_false]
  refine .to {} .readCounter rfl (by simp [advance, Shared.during, hbackend]) ?_
  cases hcycles : r.cycles with
  | none =>
    exact .trans (Runs.step { available := false } (fallBack_runs _ .returnMonotonic hd))
      (hmonotonic le_rfl)
  | some cycles =>
    simp only [hcycles, Option.toList_some, List.map_cons, List.map_nil, List.cons_append,
      List.nil_append, List.pairwise_cons, List.mem_cons, forall_eq_or_imp] at hle
    obtain ⟨⟨hle, -⟩, ⟨hd, -⟩, -⟩ := hle
    refine .wait hle (.step {} (.to {} (.loadBase cycles.toNat s.calibrationSequence) rfl
      (if_neg (by simp [Shared.during, heven])) (.step {} (.step {} (.step {} ?_)))))
    refine Runs.to {} (predict cycles.toNat s.baseCycles s.baseMonotonicNs s.cyclesPerSecond) rfl
      (if_neg (not_not.2 rfl)) ?_
    rcases predict_cases s cycles.toNat with ⟨reason, hns, hpc⟩ | ⟨predicted, hns, hpc⟩
    · simp only [hns, hpc]
      exact .trans (fallBack_runs _ .returnMonotonic hd) (hmonotonic le_rfl)
    · simp only [hns, hpc]
      refine .trans (validateIfDue_runs hbackend predicted r.validation.toNat) ?_
      generalize validateIfDue cycles.toNat predicted r.validation.toNat s = s
      by_cases hkept : s.backend = .cycles
      · rw [if_neg (not_not.2 hkept)]
        exact Runs.to {} (.returned predicted) rfl (if_neg (not_not.2 hkept)) (.wait hd .refl)
      · rw [if_pos hkept]
        exact Runs.to {} .monotonic rfl (if_pos hkept) (hmonotonic hd)

theorem exists_counter_between {l m : List ℕ} (h : (c :: (l ++ m)).Pairwise (· ≤ ·)) :
    ∃ d, (c :: (l ++ [d])).Pairwise (· ≤ ·) ∧ (d :: m).Pairwise (· ≤ ·) := by
  induction l generalizing c with
  | nil => exact ⟨c, by simp, h⟩
  | cons a l ih =>
    obtain ⟨hfirst, h⟩ := List.pairwise_cons.1 h
    obtain ⟨d, hd, hm⟩ := ih h
    have hle : c ≤ a := hfirst a List.mem_cons_self
    refine ⟨d, List.pairwise_cons.2 ⟨fun x hx => ?_, hd⟩, hm⟩
    rcases List.mem_cons.1 hx with rfl | hx
    · exact hle
    · exact hle.trans ((List.pairwise_cons.1 hd).1 x hx)

/-- No initialization and no update of the calibration is under way. -/
def Shared.Quiet (s : Shared) : Prop :=
  s.backend ≠ .initializing ∧ s.calibrationSequence % 2 = 0

theorem fallBack_quiet (reason : FallbackReason) (heven : s.calibrationSequence % 2 = 0) :
    (fallBack reason s).Quiet :=
  ⟨show Backend.monotonic ≠ .initializing by decide, heven⟩

theorem recalibrate_quiet {sample : Sample} {ns frequency : ℕ} {backend : Backend}
    (heven : s.calibrationSequence % 2 = 0) (hbackend : backend ≠ .initializing) :
    (recalibrate sample ns frequency backend s).Quiet := by
  have hnext : (s.calibrationSequence + 2) % 2 ^ 32 % 2 = 0 := by omega
  unfold recalibrate updateCalibration
  dsimp only
  split
  · exact fallBack_quiet _ hnext
  · exact ⟨hbackend, hnext⟩

theorem ensureInitialized_quiet (h : s.Quiet) : (ensureInitialized r s).Quiet := by
  unfold ensureInitialized initialise
  grind [fallBack_quiet, recalibrate_quiet, Shared.Quiet]

theorem now_quiet (h : s.Quiet) : (now r s).1.Quiet := by
  have hensured := ensureInitialized_quiet (r := r) h
  unfold now validateIfDue
  grind [fallBack_quiet, recalibrate_quiet, Shared.Quiet]

theorem now_runs (h : s.Quiet) (hle : (c :: (r.counter ++ [d])).Pairwise (· ≤ ·)) :
    Runs (s.during false c, .loadBackend)
      ((now r s).1.during false d, .returned (now r s).2) := by
  obtain ⟨e, hsamples, hcycles⟩ :=
    exists_counter_between (by rwa [Reading.counter, List.append_assoc] at hle)
  have hensured := ensureInitialized_quiet (r := r) h
  have hbackend : (ensureInitialized r s).backend = .cycles ∨
      (ensureInitialized r s).backend = .monotonic := by
    have hinitialized := ensureInitialized_initialized r s
    cases hbackend : (ensureInitialized r s).backend <;> simp_all [Shared.Quiet]
  refine .trans ?_ (ensured_runs hbackend hensured.2 hcycles)
  unfold ensureInitialized
  by_cases hfresh : s.backend = .uninitialized
  · rw [if_pos hfresh]
    have hload : (advance (s.during false c) .now {} .loadBackend).2 = .ensure := by
      simp [advance, Shared.during, hfresh]
    have hensure : (advance (s.during false c) .now {} .ensure).2 = .claim := by
      simp [advance, Shared.during, hfresh]
    have hclaim : advance (s.during false c) .now {} .claim =
        ({ s with backend := .initializing }.during false c, .probe) := if_pos hfresh
    refine Runs.to {} .ensure rfl hload (.to {} .claim rfl hensure (.step {} ?_))
    rw [hclaim]
    exact initialise_runs hsamples
  · rw [if_neg hfresh]
    exact Runs.wait ((List.pairwise_cons.1 hsamples).1 e (by simp)) .refl

/-- A world where the other threads have not called anything. -/
def World.alone (i : ℕ) (x : Shared × Pc) : World :=
  ⟨x.1, Function.update (fun _ => {}) i ⟨.now, x.2⟩⟩

theorem Runs.world {i : ℕ} (h : Runs x y) :
    ∃ events, Run.final World.step (.alone i x) events = .alone i y := by
  induction h with
  | refl => exact ⟨[], rfl⟩
  | tail _ hmove ih =>
    obtain ⟨events, hevents⟩ := ih
    cases hmove with
    | tick _ n => exact ⟨events ++ [.tick n], by rw [Run.final_append, hevents]; rfl⟩
    | run input =>
      refine ⟨events ++ [.run i input], ?_⟩
      rw [Run.final_append, hevents]
      simp [World.step, World.alone]

theorem call_world (i : ℕ) (h : s.Quiet) (hle : (c :: (r.counter ++ [d])).Pairwise (· ≤ ·)) :
    ∃ events, Run.final World.step (.alone i (s.during false c, .idle)) events =
      .alone i ((now r s).1.during false d, .returned (now r s).2) := by
  obtain ⟨events, hevents⟩ := (now_runs h hle).world (i := i)
  have hstart : World.step (.alone i (s.during false c, .idle)) (.call i .now) =
      .alone i (s.during false c, .loadBackend) := by simp [World.step, World.alone, start]
  exact ⟨.call i .now :: events, by rw [Run.final_cons, hstart, hevents]⟩

/-- Calls of one thread, one after the other, take the world where `afterCalls` takes its state. -/
theorem afterCalls_world {i : ℕ} {readings : List Reading} (h : s.Quiet)
    (hle : (c :: (readings.flatMap Reading.counter ++ [d])).Pairwise (· ≤ ·)) :
    (afterCalls s readings).Quiet ∧
    ∃ events, Run.final World.step (.alone i (s.during false c, .idle)) events =
      .alone i ((afterCalls s readings).during false d, .idle) := by
  induction readings generalizing s c with
  | nil => exact ⟨h, Runs.world (.wait ((List.pairwise_cons.1 hle).1 d (by simp)) .refl)⟩
  | cons r rest ih =>
    rw [List.flatMap_cons, List.append_assoc] at hle
    obtain ⟨e, hcall, hrest⟩ := exists_counter_between hle
    obtain ⟨events, hevents⟩ := call_world i h hcall
    obtain ⟨hquiet, later, hlater⟩ := ih (now_quiet h) hrest
    have hreturn : World.step (.alone i ((now r s).1.during false e, .returned (now r s).2))
        (.run i {}) = .alone i ((now r s).1.during false e, .idle) := by
      simp [World.step, World.alone, advance]
    exact ⟨hquiet, events ++ .run i {} :: later,
      by rw [Run.final_append, hevents, Run.final_cons, hreturn, hlater]; rfl⟩

/-- The calls of the sequential model happen in the world of the threads, with the same values. -/
theorem now_world (i : ℕ) {before : List Reading}
    (hcounter : ((before ++ [r]).flatMap Reading.counter).Pairwise (· ≤ ·)) :
    ∃ events counter, World.after events =
      .alone i ((now r (afterCalls {} before)).1.during false counter,
        .returned (now r (afterCalls {} before)).2) := by
  have hcounter : (0 :: (before.flatMap Reading.counter ++ (r.counter ++ []))).Pairwise (· ≤ ·) :=
    List.pairwise_cons.2 ⟨fun c _ => Nat.zero_le c, by simpa using hcounter⟩
  obtain ⟨c, hbefore, hcall⟩ := exists_counter_between hcounter
  obtain ⟨d, hcall, -⟩ := exists_counter_between hcall
  obtain ⟨hquiet, events, hevents⟩ := afterCalls_world (i := i) (s := {}) ⟨by decide, rfl⟩ hbefore
  obtain ⟨later, hlater⟩ := call_world i hquiet hcall
  refine ⟨events ++ later, d, ?_⟩
  have hstart : ({} : World) = .alone i (({} : Shared).during false 0, .idle) :=
    congrArg (World.mk {}) (Function.update_eq_self i _).symm
  rw [World.after, Run.final_append, hstart, hevents, hlater]

end GrpcLite.FastClock
