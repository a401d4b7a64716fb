import GrpcLite.Wire.Status
import Mathlib.Order.Lattice
import Mathlib.Order.Nat

/-!
# The delays of the reconnects

Each failed attempt scales the base of the delay, up to a maximum, and the delay that is scheduled
lies in a band around the base.  A result of `none` is an overflow that traps.
-/

namespace GrpcLite.Establish

structure ReconnectOptions where
  allowInitialOffline : Bool := false
  initialBackoffNs : UInt64 := 1000000000
  maxBackoffNs : UInt64 := 120000000000
  multiplierMillis : UInt32 := 1600
  jitterPercent : UInt8 := 20
  deriving DecidableEq

def validateReconnectOptions (options : ReconnectOptions) : Bool :=
  !(options.initialBackoffNs == 0 || decide (options.maxBackoffNs < options.initialBackoffNs) ||
    decide (options.multiplierMillis < 1000) || decide (100 < options.jitterPercent))

def mulU64 (a b : ℕ) : Option ℕ := if a * b ≤ maxU64 then some (a * b) else none

def subU64 (a b : ℕ) : Option ℕ := if b ≤ a then some (a - b) else none

def nextReconnectBackoffNs (options : ReconnectOptions) (current : ℕ) : ℕ :=
  match mulU64 current options.multiplierMillis.toNat with
  | none => options.maxBackoffNs.toNat
  | some scaled => min (scaled / 1000) options.maxBackoffNs.toNat

def jitterReconnectBackoffNs (options : ReconnectOptions) (base : ℕ) (random : UInt64) :
    Option ℕ := do
  let spread ← mulU64 (base / 100) options.jitterPercent.toNat
  if spread = 0 then
    return base
  let width := (mulU64 spread 2).getD maxU64
  let offset := random.toNat % satAdd width 1
  let low ← subU64 base spread
  return min (satAdd low offset) options.maxBackoffNs.toNat

/-- What the jitter takes from the base or adds to it at most. -/
def spread (options : ReconnectOptions) (base : ℕ) : ℕ := base / 100 * options.jitterPercent.toNat

structure ReconnectOptions.Valid (options : ReconnectOptions) : Prop where
  ordered : options.initialBackoffNs.toNat ≤ options.maxBackoffNs.toNat
  multiplier : 1000 ≤ options.multiplierMillis.toNat
  jitter : options.jitterPercent.toNat ≤ 100

theorem valid_of_validate {options : ReconnectOptions}
    (haccepted : validateReconnectOptions options = true) : options.Valid := by
  simp only [validateReconnectOptions, Bool.not_eq_true', Bool.or_eq_false_iff,
    decide_eq_false_iff_not] at haccepted
  obtain ⟨⟨⟨-, hmax⟩, hmultiplier⟩, hjitter⟩ := haccepted
  exact ⟨UInt64.le_iff_toNat_le.1 (UInt64.not_lt.1 hmax),
    UInt32.le_iff_toNat_le.1 (UInt32.not_lt.1 hmultiplier),
    UInt8.le_iff_toNat_le.1 (UInt8.not_lt.1 hjitter)⟩

section

variable {options : ReconnectOptions} {base : ℕ}

theorem nextReconnectBackoffNs_le_max :
    nextReconnectBackoffNs options base ≤ options.maxBackoffNs.toNat := by
  unfold nextReconnectBackoffNs
  split
  · exact le_rfl
  · exact min_le_right _ _

theorem le_nextReconnectBackoffNs (hvalid : options.Valid)
    (hbase : base ≤ options.maxBackoffNs.toNat) : base ≤ nextReconnectBackoffNs options base := by
  unfold nextReconnectBackoffNs mulU64
  split
  · exact hbase
  · next hscaled =>
    split at hscaled
    · cases hscaled
      have hgrows : base * 1000 ≤ base * options.multiplierMillis.toNat :=
        Nat.mul_le_mul_left _ hvalid.multiplier
      exact le_min (by omega) hbase
    · cases hscaled

theorem spread_le (hvalid : options.Valid) : spread options base ≤ base := by
  have hscaled : base / 100 * options.jitterPercent.toNat ≤ base / 100 * 100 :=
    Nat.mul_le_mul_left _ hvalid.jitter
  unfold spread
  omega

/-- The offset above the lower end stays in the band although the width and its successor
saturate. -/
theorem offset_le_width (spread : ℕ) (random : UInt64) :
    random.toNat % satAdd ((mulU64 spread 2).getD maxU64) 1 ≤ spread * 2 := by
  have hrandom : random.toNat ≤ maxU64 := Nat.le_sub_one_of_lt random.toNat_lt
  unfold mulU64 satAdd
  split
  · next hfits =>
    have hpositive : 0 < min (spread * 2 + 1) maxU64 := lt_min (Nat.succ_pos _) (by decide)
    have := Nat.mod_lt random.toNat hpositive
    simp only [Option.getD_some]
    omega
  · next hwide =>
    have := Nat.mod_le random.toNat (min (maxU64 + 1) maxU64)
    simp only [Option.getD_none]
    omega

theorem jitterReconnectBackoffNs_spec (hvalid : options.Valid)
    (hbase : base ≤ options.maxBackoffNs.toNat) (random : UInt64) :
    ∃ delay, jitterReconnectBackoffNs options base random = some delay ∧
      base - spread options base ≤ delay ∧
      delay ≤ min (base + spread options base) options.maxBackoffNs.toNat := by
  have hmax : options.maxBackoffNs.toNat ≤ maxU64 :=
    Nat.le_sub_one_of_lt options.maxBackoffNs.toNat_lt
  have hspread : spread options base ≤ base := spread_le hvalid
  have hmul : mulU64 (base / 100) options.jitterPercent.toNat = some (spread options base) :=
    if_pos (hspread.trans (hbase.trans hmax))
  have hsub : subU64 base (spread options base) = some (base - spread options base) :=
    if_pos hspread
  have hoffset := offset_le_width (spread options base) random
  unfold jitterReconnectBackoffNs
  simp only [hmul, Option.bind_eq_bind, Option.bind_some]
  split
  · next hzero => exact ⟨base, rfl, by omega, by omega⟩
  · rw [hsub]
    refine ⟨_, rfl, ?_, ?_⟩ <;> unfold satAdd at * <;> omega

end

end GrpcLite.Establish
