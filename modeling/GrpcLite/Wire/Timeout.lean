import GrpcLite.Wire.Status
import Mathlib.Data.List.Induction
import Mathlib.Data.Nat.Digits.Defs
import Mathlib.Tactic.Ring

/-!
# Timeouts on the wire

A timeout is written in the finest unit in which it has at most eight digits, rounded up.  What the
peer reads is the least multiple of that unit that is not shorter, saturated.
-/

namespace GrpcLite.Timeout

structure Scale where
  finer : ℕ
  divisor : ℕ
  suffix : Char
  deriving DecidableEq, Repr

def scales : List Scale :=
  [⟨0, 1, 'n'⟩, ⟨1, 1000, 'u'⟩, ⟨1000, 1000000, 'm'⟩, ⟨1000000, 1000000000, 'S'⟩,
    ⟨1000000000, 60000000000, 'M'⟩, ⟨60000000000, 3600000000000, 'H'⟩]

def maxAmount : ℕ := 99999999

/-! ## Amounts -/

variable {t divisor n : ℕ} {scale : Scale}

theorem timeoutAmount_le_iff (hdivisor : 0 < divisor) :
    timeoutAmount t divisor ≤ n ↔ 1 ≤ n ∧ t ≤ divisor * n := by
  unfold timeoutAmount
  rw [max_le_iff]
  refine and_congr_right fun _ => ?_
  rw [Nat.div_le_iff_le_mul_add_pred hdivisor]
  omega

theorem one_le_timeoutAmount (t divisor : ℕ) : 1 ≤ timeoutAmount t divisor := le_max_left _ _

theorem le_mul_timeoutAmount (t : ℕ) (hdivisor : 0 < divisor) :
    t ≤ divisor * timeoutAmount t divisor :=
  ((timeoutAmount_le_iff hdivisor).mp le_rfl).2

theorem mul_timeoutAmount_lt (hdivisor : 0 < divisor) (ht : 0 < t) :
    divisor * timeoutAmount t divisor < t + divisor := by
  by_contra hle
  obtain ⟨n, hn⟩ : ∃ n, timeoutAmount t divisor = n + 1 :=
    Nat.exists_eq_add_of_le' (one_le_timeoutAmount t divisor)
  have hfits : t ≤ divisor * n := by
    rw [hn, Nat.mul_succ] at hle
    omega
  have hpos : 1 ≤ n := by
    rcases Nat.eq_zero_or_pos n with rfl | hpos
    · omega
    · exact hpos
  have hleast := (timeoutAmount_le_iff hdivisor).mpr ⟨hpos, hfits⟩
  omega

theorem timeoutAmount_mono {t' : ℕ} (hdivisor : 0 < divisor) (h : t ≤ t') :
    timeoutAmount t divisor ≤ timeoutAmount t' divisor :=
  (timeoutAmount_le_iff hdivisor).mpr
    ⟨one_le_timeoutAmount _ _, h.trans (le_mul_timeoutAmount t' hdivisor)⟩

theorem timeoutAmount_mul (hdivisor : 0 < divisor) (hn : 1 ≤ n) :
    timeoutAmount (divisor * n) divisor = n := by
  refine le_antisymm ((timeoutAmount_le_iff hdivisor).mpr ⟨hn, le_rfl⟩) ?_
  exact Nat.le_of_mul_le_mul_left (le_mul_timeoutAmount _ hdivisor) hdivisor

/-! ## Units -/

structure Selected (t : ℕ) (scale : Scale) : Prop where
  mem : scale ∈ scales
  fits : t ≤ scale.divisor * maxAmount
  finest : scale.finer = 0 ∨ scale.finer * maxAmount < t

theorem divisor_pos (h : scale ∈ scales) : 0 < scale.divisor := by
  revert h scale
  decide

theorem scales_ordered : ∀ scale ∈ scales, ∀ scale' ∈ scales,
    scale = scale' ∨ (scale.divisor ≤ scale'.finer ∧ 0 < scale'.finer) ∨
      scale'.divisor ≤ scale.finer ∧ 0 < scale.finer := by
  decide

theorem divisor_le : ∀ scale ∈ scales, scale.finer = 0 ∧ scale.divisor = 1 ∨
    0 < scale.finer ∧ scale.divisor ≤ 1000 * scale.finer := by
  decide

theorem Selected.le {t' : ℕ} {scale' : Scale} (h : Selected t scale) (h' : Selected t' scale')
    (hle : t ≤ t') :
    scale = scale' ∨ scale.divisor ≤ scale'.finer ∧ scale'.finer * maxAmount < t' := by
  rcases scales_ordered scale h.mem scale' h'.mem with heq | ⟨hfiner, hpos⟩ | ⟨hcoarser, hpos⟩
  · exact .inl heq
  · exact .inr ⟨hfiner, h'.finest.resolve_left hpos.ne'⟩
  · have hlong := h.finest.resolve_left hpos.ne'
    have hshort := h'.fits
    have hmul := Nat.mul_le_mul_right maxAmount hcoarser
    omega

theorem Selected.unique {scale' : Scale} (h : Selected t scale) (h' : Selected t scale') :
    scale = scale' := by
  rcases h.le h' le_rfl with heq | ⟨hfiner, hlong⟩
  · exact heq
  · have hshort := h.fits
    have hmul := Nat.mul_le_mul_right maxAmount hfiner
    omega

/-! ## Writing and reading -/

def text (n : ℕ) (suffix : Char) : Bytes :=
  (Nat.toDigits 10 n ++ [suffix]).map fun ch => ch.toNat.toUInt8

theorem ascii_toString (n : ℕ) (suffix : Char) (string : String) (h : string.toList = [suffix]) :
    ascii (toString n ++ string) = text n suffix := by
  simp [ascii, text, h]

theorem formatTimeout_eq (ht : t ≤ maxU64) :
    ∃ scale, Selected t scale ∧
      formatTimeout t = text (timeoutAmount t scale.divisor) scale.suffix := by
  -- Each unit that is passed over bounds the timeout from below.
  have hlong : ∀ {divisor : ℕ}, 0 < divisor → ¬timeoutAmount t divisor ≤ 99999999 →
      divisor * maxAmount < t := by
    intro divisor hdivisor hmore
    rw [timeoutAmount_le_iff hdivisor] at hmore
    simp only [maxAmount]
    omega
  have hfits : ∀ {divisor : ℕ}, 0 < divisor → timeoutAmount t divisor ≤ 99999999 →
      t ≤ divisor * maxAmount := fun hdivisor hle => ((timeoutAmount_le_iff hdivisor).mp hle).2
  unfold formatTimeout
  simp only [formatTimeoutIn]
  split
  · rename_i hle
    exact ⟨⟨0, 1, 'n'⟩, ⟨by decide, hfits (by decide) hle, .inl rfl⟩, ascii_toString _ _ _ rfl⟩
  rename_i hn
  split
  · rename_i hle
    exact ⟨⟨1, 1000, 'u'⟩, ⟨by decide, hfits (by decide) hle, .inr (hlong (by decide) hn)⟩,
      ascii_toString _ _ _ rfl⟩
  rename_i hu
  split
  · rename_i hle
    exact ⟨⟨1000, 1000000, 'm'⟩, ⟨by decide, hfits (by decide) hle, .inr (hlong (by decide) hu)⟩,
      ascii_toString _ _ _ rfl⟩
  rename_i hm
  split
  · rename_i hle
    exact ⟨⟨1000000, 1000000000, 'S'⟩,
      ⟨by decide, hfits (by decide) hle, .inr (hlong (by decide) hm)⟩, ascii_toString _ _ _ rfl⟩
  rename_i hs
  split
  · rename_i hle
    exact ⟨⟨1000000000, 60000000000, 'M'⟩,
      ⟨by decide, hfits (by decide) hle, .inr (hlong (by decide) hs)⟩, ascii_toString _ _ _ rfl⟩
  · rename_i hminutes
    have hle : timeoutAmount t 3600000000000 ≤ 99999999 := by
      rw [timeoutAmount_le_iff (by decide)]
      simp only [maxU64] at ht
      omega
    rw [min_eq_left hle]
    exact ⟨⟨60000000000, 3600000000000, 'H'⟩,
      ⟨by decide, hfits (by decide) hle, .inr (hlong (by decide) hminutes)⟩,
      ascii_toString _ _ _ rfl⟩

def decimal (digits : Bytes) : ℕ :=
  Nat.ofDigits 10 (digits.reverse.map fun digit => digit.toNat - 48)

theorem digitsToNat_eq (digits : Bytes) : digitsToNat digits = decimal digits := by
  induction digits using List.reverseRecOn with
  | nil => rfl
  | append_singleton digits digit ih =>
    unfold digitsToNat decimal at *
    rw [List.foldl_append, ih]
    simp only [List.foldl_cons, List.foldl_nil, List.reverse_append, List.reverse_cons,
      List.reverse_nil, List.nil_append, List.cons_append, List.map_cons, Nat.ofDigits_cons]
    ring

theorem parseTimeout_eq_some {value : Bytes} {result : ℕ} :
    parseTimeout value = some result ↔
      ∃ digits unit multiplier, value = digits ++ [unit] ∧ 1 ≤ digits.length ∧ digits.length ≤ 8 ∧
        (∀ digit ∈ digits, 48 ≤ digit ∧ digit ≤ 57) ∧ timeoutMultiplier unit = some multiplier ∧
          result = min (decimal digits * multiplier) maxU64 := by
  constructor
  · intro h
    unfold parseTimeout at h
    split at h
    · cases h
    rename_i hlength
    split at h
    · cases h
    rename_i hdigits
    cases hlast : value.getLast? with
    | none => simp [hlast] at h
    | some unit =>
      cases hmultiplier : timeoutMultiplier unit with
      | none => simp [hlast, hmultiplier] at h
      | some multiplier =>
        obtain ⟨digits, rfl⟩ := List.getLast?_eq_some_iff.mp hlast
        simp only [List.getLast?_append, List.getLast?_singleton, Option.some_or, Option.bind_some,
          hmultiplier, List.dropLast_concat, Option.some.injEq] at h hdigits
        simp only [List.length_append, List.length_singleton] at hlength
        refine ⟨digits, unit, multiplier, rfl, by omega, by omega, ?_, hmultiplier, ?_⟩
        · simpa using hdigits
        · rw [← h, digitsToNat_eq]
  · rintro ⟨digits, unit, multiplier, rfl, hpos, hlength, hdigits, hmultiplier, rfl⟩
    unfold parseTimeout
    rw [if_neg (by simp only [List.length_append, List.length_singleton]; omega)]
    have hall : (digits.all fun digit => 48 ≤ digit && digit ≤ 57) = true := by simpa using hdigits
    simp only [List.dropLast_concat, hall, Bool.not_true, Bool.false_eq_true, if_false,
      List.getLast?_append, List.getLast?_singleton, Option.some_or, Option.bind_some, hmultiplier,
      digitsToNat_eq]

theorem toDigits_bytes (n : ℕ) : ∀ ch ∈ Nat.toDigits 10 n,
    48 ≤ ch.toNat.toUInt8 ∧ ch.toNat.toUInt8 ≤ 57 ∧ ch.toNat.toUInt8.toNat = ch.toNat := by
  intro ch hch
  have hdigit := Nat.isDigit_of_mem_toDigits (by decide) (by decide) hch
  have hrange : 48 ≤ ch.toNat ∧ ch.toNat ≤ 57 := by
    simpa [Char.isDigit, UInt32.le_iff_toNat_le] using hdigit
  have hbyte : ch.toNat.toUInt8.toNat = ch.toNat := by
    simp only [Nat.toUInt8_eq, UInt8.toNat_ofNat']
    omega
  refine ⟨?_, ?_, hbyte⟩
  · rw [UInt8.le_iff_toNat_le, hbyte]
    exact hrange.1
  · rw [UInt8.le_iff_toNat_le, hbyte]
    exact hrange.2

theorem decimal_toDigits (n : ℕ) :
    decimal ((Nat.toDigits 10 n).map fun ch => ch.toNat.toUInt8) = n := by
  rw [← digitsToNat_eq]
  conv_rhs => rw [← Nat.ofDigitChars_ten_toDigits (n := n)]
  unfold digitsToNat Nat.ofDigitChars
  rw [List.foldl_map]
  refine List.foldl_ext _ _ _ fun amount ch hch => ?_
  rw [(toDigits_bytes n ch hch).2.2]
  rfl

theorem multiplier_suffix : ∀ scale ∈ scales,
    timeoutMultiplier scale.suffix.toNat.toUInt8 = some scale.divisor := by
  decide

theorem parseTimeout_text (hscale : scale ∈ scales) (hn : n ≤ maxAmount) :
    parseTimeout (text n scale.suffix) = some (min (n * scale.divisor) maxU64) := by
  refine parseTimeout_eq_some.mpr
    ⟨(Nat.toDigits 10 n).map fun ch => ch.toNat.toUInt8, _, scale.divisor, ?_, ?_, ?_, ?_,
      multiplier_suffix scale hscale, ?_⟩
  · simp [text]
  · rw [List.length_map]
    exact Nat.length_toDigits_pos
  · rw [List.length_map, Nat.length_toDigits_le_iff (by decide) (by decide)]
    simp only [maxAmount] at hn
    omega
  · intro digit hdigit
    obtain ⟨ch, hch, rfl⟩ := List.mem_map.mp hdigit
    obtain ⟨hlow, hhigh, -⟩ := toDigits_bytes n ch hch
    exact ⟨hlow, hhigh⟩
  · rw [decimal_toDigits]

theorem length_text (hn : n ≤ maxAmount) (suffix : Char) :
    2 ≤ (text n suffix).length ∧ (text n suffix).length ≤ 9 := by
  have hpos : 0 < (Nat.toDigits 10 n).length := Nat.length_toDigits_pos
  have hle : (Nat.toDigits 10 n).length ≤ 8 := by
    rw [Nat.length_toDigits_le_iff (by decide) (by decide)]
    simp only [maxAmount] at hn
    omega
  simp only [text, List.length_map, List.length_append, List.length_singleton]
  omega

/-! ## The timeout that arrives -/

def Scale.arrival (scale : Scale) (t : ℕ) : ℕ :=
  min (timeoutAmount t scale.divisor * scale.divisor) maxU64

section Arrival

variable {t t' : ℕ} {scale scale' : Scale}

variable (h : Selected t scale)

include h

theorem Selected.amount_le : timeoutAmount t scale.divisor ≤ maxAmount :=
  (timeoutAmount_le_iff (divisor_pos h.mem)).mpr ⟨by decide, h.fits⟩

theorem Selected.parse_eq :
    parseTimeout (text (timeoutAmount t scale.divisor) scale.suffix) = some (scale.arrival t) :=
  parseTimeout_text h.mem h.amount_le

theorem Selected.le_arrival (ht : t ≤ maxU64) : max 1 t ≤ scale.arrival t := by
  have hpos := divisor_pos h.mem
  have hle := le_mul_timeoutAmount t hpos
  have hone : 1 ≤ scale.divisor * timeoutAmount t scale.divisor :=
    Nat.mul_pos hpos (one_le_timeoutAmount t _)
  rw [Nat.mul_comm] at hle hone
  exact le_min (max_le hone hle) (max_le (by decide) ht)

theorem Selected.arrival_le : scale.arrival t ≤ scale.divisor * maxAmount := by
  refine (min_le_left _ _).trans ?_
  rw [Nat.mul_comm]
  exact Nat.mul_le_mul_left _ h.amount_le

/-- Rounding up adds less than one unit, and the timeout has at least eight digits of the next finer
unit. -/
theorem Selected.error_lt (hpos : 0 < t) :
    (scale.arrival t - t) * maxAmount < 1000 * t := by
  have hround : scale.arrival t < t + scale.divisor := by
    refine (min_le_left _ _).trans_lt ?_
    rw [Nat.mul_comm]
    exact mul_timeoutAmount_lt (divisor_pos h.mem) hpos
  rcases divisor_le scale h.mem with ⟨-, hone⟩ | ⟨hfiner, hdivisor⟩
  · have hexact : scale.arrival t - t = 0 := by omega
    rw [hexact]
    omega
  · have hlong := h.finest.resolve_left hfiner.ne'
    calc (scale.arrival t - t) * maxAmount
        ≤ scale.divisor * maxAmount := Nat.mul_le_mul_right _ (by omega)
      _ ≤ 1000 * scale.finer * maxAmount := Nat.mul_le_mul_right _ hdivisor
      _ = 1000 * (scale.finer * maxAmount) := Nat.mul_assoc _ _ _
      _ < 1000 * t := Nat.mul_lt_mul_of_pos_left hlong (by decide)

theorem Selected.arrival_mono (h' : Selected t' scale') (ht' : t' ≤ maxU64)
    (hle : t ≤ t') : scale.arrival t ≤ scale'.arrival t' := by
  rcases h.le h' hle with rfl | ⟨hfiner, hlong⟩
  · have hamount := timeoutAmount_mono (divisor_pos h.mem) hle
    exact min_le_min_right _ (Nat.mul_le_mul_right _ hamount)
  · calc scale.arrival t ≤ scale.divisor * maxAmount := h.arrival_le
      _ ≤ scale'.finer * maxAmount := Nat.mul_le_mul_right _ hfiner
      _ ≤ t' := hlong.le
      _ ≤ scale'.arrival t' := (le_max_right 1 t').trans (h'.le_arrival ht')

theorem Selected.arrival_idem (ht : t ≤ maxU64)
    (h' : Selected (scale.arrival t) scale') : scale'.arrival (scale.arrival t) =
      scale.arrival t := by
  have hle := (le_max_right 1 t).trans (h.le_arrival ht)
  have hmax : scale.arrival t ≤ maxU64 := min_le_right _ _
  have hge := (le_max_right 1 _).trans (h'.le_arrival hmax)
  rcases min_choice (timeoutAmount t scale.divisor * scale.divisor) maxU64 with hexact | hsaturated
  · have hsame : Selected (scale.arrival t) scale :=
      ⟨h.mem, h.arrival_le, h.finest.imp_right fun hlong => hlong.trans_le hle⟩
    obtain rfl := h'.unique hsame
    have hwhole : scale'.arrival t = scale'.divisor * timeoutAmount t scale'.divisor := by
      rw [Nat.mul_comm]
      exact hexact
    have hamount : timeoutAmount (scale'.arrival t) scale'.divisor =
        timeoutAmount t scale'.divisor := by
      rw [hwhole]
      exact timeoutAmount_mul (divisor_pos h.mem) (one_le_timeoutAmount _ _)
    simp only [Scale.arrival] at hamount ⊢
    rw [hamount]
  · have htop : scale.arrival t = maxU64 := hsaturated
    exact le_antisymm (htop ▸ min_le_right _ _) hge

end Arrival

def onWire (t : ℕ) : ℕ := (parseTimeout (formatTimeout t)).getD 0

theorem onWire_eq (ht : t ≤ maxU64) : ∃ scale, Selected t scale ∧
    formatTimeout t = text (timeoutAmount t scale.divisor) scale.suffix ∧
      parseTimeout (formatTimeout t) = some (onWire t) ∧ onWire t = scale.arrival t := by
  obtain ⟨scale, hselected, hformat⟩ := formatTimeout_eq ht
  have hparse : parseTimeout (formatTimeout t) = some (scale.arrival t) := by
    rw [hformat]
    exact hselected.parse_eq
  have hwire : onWire t = scale.arrival t := by
    unfold onWire
    rw [hparse]
    rfl
  exact ⟨scale, hselected, hformat, hwire ▸ hparse, hwire⟩

theorem timeoutMultiplier_eq_some {unit : UInt8} {multiplier : ℕ} :
    timeoutMultiplier unit = some multiplier ↔
      ∃ scale ∈ scales, scale.suffix.toNat.toUInt8 = unit ∧ scale.divisor = multiplier := by
  constructor
  · intro h
    unfold timeoutMultiplier at h
    split_ifs at h with hn hu hm hs hminutes hhours <;> cases h
    · exact ⟨⟨0, 1, 'n'⟩, by decide, hn.symm, rfl⟩
    · exact ⟨⟨1, 1000, 'u'⟩, by decide, hu.symm, rfl⟩
    · exact ⟨⟨1000, 1000000, 'm'⟩, by decide, hm.symm, rfl⟩
    · exact ⟨⟨1000000, 1000000000, 'S'⟩, by decide, hs.symm, rfl⟩
    · exact ⟨⟨1000000000, 60000000000, 'M'⟩, by decide, hminutes.symm, rfl⟩
    · exact ⟨⟨60000000000, 3600000000000, 'H'⟩, by decide, hhours.symm, rfl⟩
  · rintro ⟨scale, hscale, rfl, rfl⟩
    exact multiplier_suffix scale hscale

/-- Every timeout is written in two to nine bytes, which are accepted.  What arrives is not shorter
and at most a hundred-thousandth longer, grows with the timeout, is written as it is, and loses
nothing to the limit of eight digits of hours.  Whatever is accepted is an amount of one to eight
digits in one of the units, and is read as their product, saturated. -/
theorem timeout_wire_format :
    (∀ t ≤ maxU64, 2 ≤ (formatTimeout t).length ∧ (formatTimeout t).length ≤ 9 ∧
      parseTimeout (formatTimeout t) = some (onWire t) ∧ max 1 t ≤ onWire t ∧
      (0 < t → (onWire t - t) * 99999999 < 1000 * t) ∧ onWire (onWire t) = onWire t ∧
      min (timeoutAmount t 3600000000000) 99999999 = timeoutAmount t 3600000000000) ∧
    (∀ t t', t ≤ t' → t' ≤ maxU64 → onWire t ≤ onWire t') ∧
    ∀ value result, parseTimeout value = some result ↔
      ∃ digits, ∃ scale ∈ scales, value = digits ++ [scale.suffix.toNat.toUInt8] ∧
        1 ≤ digits.length ∧ digits.length ≤ 8 ∧ (∀ digit ∈ digits, 48 ≤ digit ∧ digit ≤ 57) ∧
          result = min (decimal digits * scale.divisor) (2 ^ 64 - 1) := by
  refine ⟨?_, ?_, ?_⟩
  · intro t ht
    obtain ⟨scale, hselected, hformat, hparse, hwire⟩ := onWire_eq ht
    have hlength := length_text hselected.amount_le scale.suffix
    rw [← hformat] at hlength
    have hmax : onWire t ≤ maxU64 := hwire ▸ min_le_right _ _
    refine ⟨hlength.1, hlength.2, hparse, hwire ▸ hselected.le_arrival ht,
      fun hpos => hwire ▸ hselected.error_lt hpos, ?_, ?_⟩
    · obtain ⟨scale', hselected', -, -, hwire'⟩ := onWire_eq hmax
      rw [hwire', hwire]
      rw [hwire] at hselected'
      exact hselected.arrival_idem ht hselected'
    · refine min_eq_left ((timeoutAmount_le_iff (by decide)).mpr ⟨by decide, ?_⟩)
      simp only [maxU64] at ht
      omega
  · intro t t' hle ht'
    obtain ⟨scale, hselected, -, -, hwire⟩ := onWire_eq (hle.trans ht')
    obtain ⟨scale', hselected', -, -, hwire'⟩ := onWire_eq ht'
    rw [hwire, hwire']
    exact hselected.arrival_mono hselected' ht' hle
  · intro value result
    rw [parseTimeout_eq_some]
    constructor
    · rintro ⟨digits, unit, multiplier, hvalue, hpos, hlength, hdigits, hmultiplier, hresult⟩
      obtain ⟨scale, hscale, rfl, rfl⟩ := timeoutMultiplier_eq_some.mp hmultiplier
      exact ⟨digits, scale, hscale, hvalue, hpos, hlength, hdigits, hresult⟩
    · rintro ⟨digits, scale, hscale, hvalue, hpos, hlength, hdigits, hresult⟩
      exact ⟨digits, _, _, hvalue, hpos, hlength, hdigits, multiplier_suffix scale hscale, hresult⟩

/-- The longest timeout: in hours, and saturated when it is read. -/
theorem timeout_wire_format_longest :
    formatTimeout maxU64 = ascii "5124096H" ∧ onWire maxU64 = maxU64 := by
  have hwire := (timeout_wire_format.1 maxU64 le_rfl).2.2.1
  refine ⟨by decide, ?_⟩
  have hparse : parseTimeout (formatTimeout maxU64) = some maxU64 := by decide
  exact (Option.some.inj (hparse.symm.trans hwire)).symm

end GrpcLite.Timeout
