import Mathlib.Algebra.Order.Group.Nat
import Mathlib.Tactic.Common
import Mathlib.Data.List.Basic

/-!
# Base64 of binary metadata

`Metadata.appendDecoded` decodes each piece of a `-bin` value with `std.base64.standard.Decoder`
when the piece ends in `=` and with `std.base64.standard_no_pad.Decoder` otherwise, and
`encodeOutboundValue` encodes with `std.base64.standard.Encoder`.  The codecs below follow the
documented behaviour of that library.
-/

namespace GrpcLite

abbrev Bytes := List UInt8

def ascii (text : String) : Bytes := text.toList.map fun ch => ch.toNat.toUInt8

namespace Base64

inductive DecodeError where
  | invalidCharacter
  | invalidPadding
  deriving DecidableEq, Repr

structure Decoder where
  padChar : Option UInt8
  deriving DecidableEq, Repr

def pad : UInt8 := 61

def standard : Decoder := ⟨some pad⟩

def standardNoPad : Decoder := ⟨none⟩

def charToIndex (ch : UInt8) : Option ℕ :=
  if 65 ≤ ch ∧ ch ≤ 90 then some (ch.toNat - 65)
  else if 97 ≤ ch ∧ ch ≤ 122 then some (ch.toNat - 71)
  else if 48 ≤ ch ∧ ch ≤ 57 then some (ch.toNat + 4)
  else if ch = 43 then some 62
  else if ch = 47 then some 63
  else none

def indexToChar (index : ℕ) : UInt8 :=
  if index < 26 then (index + 65).toUInt8
  else if index < 52 then (index + 71).toUInt8
  else if index < 62 then (index - 4).toUInt8
  else if index = 62 then 43
  else 47

/-- `standard.Encoder`: three bytes become four characters, and the last ones are padded. -/
def encode : Bytes → Bytes
  | a :: b :: c :: rest =>
    indexToChar (a.toNat / 4) :: indexToChar (a.toNat % 4 * 16 + b.toNat / 16) ::
      indexToChar (b.toNat % 16 * 4 + c.toNat / 64) :: indexToChar (c.toNat % 64) :: encode rest
  | [a, b] =>
    [indexToChar (a.toNat / 4), indexToChar (a.toNat % 4 * 16 + b.toNat / 16),
      indexToChar (b.toNat % 16 * 4), pad]
  | [a] => [indexToChar (a.toNat / 4), indexToChar (a.toNat % 4 * 16), pad, pad]
  | [] => []

def calcSizeUpperBound (decoder : Decoder) (length : ℕ) : Except DecodeError ℕ :=
  let leftover := length % 4
  if decoder.padChar.isSome then
    if leftover ≠ 0 then .error .invalidPadding else .ok (length / 4 * 3)
  else if leftover = 1 then .error .invalidPadding
  else .ok (length / 4 * 3 + leftover * 3 / 4)

def calcSizeForSlice (decoder : Decoder) (source : Bytes) : Except DecodeError ℕ := do
  let bound ← calcSizeUpperBound decoder source.length
  match decoder.padChar with
  | none => pure bound
  | some padChar =>
    let bound := if source.reverse[0]? = some padChar then bound - 1 else bound
    pure (if source.reverse[1]? = some padChar then bound - 1 else bound)

/-- What the character loop leaves behind: the bytes written, the bit accumulator with its
length, and the rest of the input if the loop stopped at a padding character. -/
structure Scan where
  written : Bytes
  acc : ℕ
  accLen : ℕ
  leftover : Option Bytes
  deriving DecidableEq, Repr

def scan (decoder : Decoder) (acc accLen : ℕ) : Bytes → Except DecodeError Scan
  | [] => .ok ⟨[], acc, accLen, none⟩
  | ch :: rest =>
    match charToIndex ch with
    | none =>
      if decoder.padChar = some ch then .ok ⟨[], acc, accLen, some (ch :: rest)⟩
      else .error .invalidCharacter
    | some digit =>
      let acc := (acc * 64 + digit) % 2 ^ 12
      if 8 ≤ accLen + 6 then
        match scan decoder acc (accLen + 6 - 8) rest with
        | .ok result =>
          .ok { result with
            written := (acc / 2 ^ (accLen + 6 - 8)).toUInt8 :: result.written }
        | .error err => .error err
      else scan decoder acc (accLen + 6) rest

def decode (decoder : Decoder) (source : Bytes) : Except DecodeError Bytes :=
  if decoder.padChar.isSome ∧ source.length % 4 ≠ 0 then .error .invalidPadding
  else match scan decoder 0 0 source with
    | .error err => .error err
    | .ok result =>
      if 4 < result.accLen ∨ result.acc % 2 ^ result.accLen ≠ 0 then .error .invalidPadding
      else match result.leftover with
        | none => .ok result.written
        | some leftover =>
          if leftover.any (fun ch => decoder.padChar ≠ some ch) then .error .invalidPadding
          else if leftover.length ≠ result.accLen / 2 then .error .invalidPadding
          else .ok result.written

/-! ## Lengths -/

variable {decoder : Decoder} {source decoded : Bytes} {result : Scan} {size : ℕ}

theorem scan_bits {acc accLen : ℕ} (h : scan decoder acc accLen source = .ok result) :
    8 * result.written.length + result.accLen + 6 * (result.leftover.getD []).length =
      accLen + 6 * source.length := by
  induction source generalizing acc accLen result with
  | nil =>
      simp only [scan, Except.ok.injEq] at h
      subst h
      simp
  | cons ch rest ih =>
      unfold scan at h
      split at h
      · split at h
        · simp only [Except.ok.injEq] at h
          subst h
          simp
        · cases h
      · dsimp only at h
        split at h
        · split at h
          · rename_i hscan
            simp only [Except.ok.injEq] at h
            subst h
            have := ih hscan
            simp only [List.length_cons]
            omega
          · cases h
        · have := ih h
          simp only [List.length_cons]
          omega

theorem scan_leftover {acc accLen : ℕ} (h : scan decoder acc accLen source = .ok result) :
    ∃ consumed, source = consumed ++ result.leftover.getD [] ∧
      ∀ ch ∈ consumed, (charToIndex ch).isSome := by
  induction source generalizing acc accLen result with
  | nil =>
      simp only [scan, Except.ok.injEq] at h
      subst h
      exact ⟨[], rfl, by simp⟩
  | cons ch rest ih =>
      unfold scan at h
      split at h
      · split at h
        · simp only [Except.ok.injEq] at h
          subst h
          exact ⟨[], rfl, by simp⟩
        · cases h
      · rename_i hdigit
        have hchar : (charToIndex ch).isSome := by rw [hdigit]; rfl
        dsimp only at h
        split at h
        · split at h
          · rename_i hscan
            simp only [Except.ok.injEq] at h
            subst h
            obtain ⟨consumed, hrest, hall⟩ := ih hscan
            exact ⟨ch :: consumed, by simpa using hrest, by simpa using ⟨hchar, hall⟩⟩
          · cases h
        · obtain ⟨consumed, hrest, hall⟩ := ih h
          exact ⟨ch :: consumed, by simpa using hrest, by simpa using ⟨hchar, hall⟩⟩

theorem decode_cases (h : decode decoder source = .ok decoded) :
    ∃ result, scan decoder 0 0 source = .ok result ∧ decoded = result.written ∧
      result.accLen ≤ 4 ∧ (decoder.padChar.isSome → source.length % 4 = 0) ∧
      (∀ leftover, result.leftover = some leftover →
        (∀ ch ∈ leftover, decoder.padChar = some ch) ∧ leftover.length = result.accLen / 2) := by
  unfold decode at h
  split at h
  · cases h
  · split at h
    · cases h
    · rename_i result hscan
      split at h
      · cases h
      · refine ⟨result, hscan, ?_⟩
        split at h
        · rename_i hleft
          cases h
          exact ⟨rfl, by omega, by tauto, by simp [hleft]⟩
        · rename_i leftover hleft
          split at h
          · cases h
          · rename_i hany
            split at h
            · cases h
            · cases h
              refine ⟨rfl, by omega, by tauto, ?_⟩
              rintro _ hsome
              obtain rfl : leftover = _ := by simpa [hleft] using hsome
              exact ⟨by simpa using hany, by omega⟩

theorem decode_length_le (h : decode decoder source = .ok decoded) :
    decoded.length ≤ source.length := by
  obtain ⟨result, hscan, rfl, -⟩ := decode_cases h
  have := scan_bits hscan
  omega

theorem calcSizeForSlice_standard (h : calcSizeForSlice standard source = .ok size) :
    size = source.length / 4 * 3 - (if source.reverse[0]? = some pad then 1 else 0) -
      (if source.reverse[1]? = some pad then 1 else 0) := by
  simp only [calcSizeForSlice, calcSizeUpperBound, standard] at h
  by_cases hmod : source.length % 4 = 0
  · simp only [hmod, Option.isSome_some] at h
    cases h
    split_ifs <;> simp_all
  · simp [hmod, bind, Except.bind] at h

/-- The buffer allocated for a padded piece has exactly the size of what is decoded into it. -/
theorem decode_length_standard (hsize : calcSizeForSlice standard source = .ok size)
    (h : decode standard source = .ok decoded) : decoded.length = size := by
  obtain ⟨result, hscan, rfl, hacc, hmod, hleft⟩ := decode_cases h
  obtain ⟨consumed, hsource, hall⟩ := scan_leftover hscan
  have hbits := scan_bits hscan
  have hmod := hmod rfl
  have hpadded : ∃ n, result.leftover.getD [] = List.replicate n pad ∧
      (n = 0 ∨ n = result.accLen / 2) := by
    cases hcase : result.leftover with
    | none => exact ⟨0, rfl, .inl rfl⟩
    | some leftover =>
        obtain ⟨hpads, hlen⟩ := hleft leftover hcase
        refine ⟨leftover.length, List.eq_replicate_iff.mpr ⟨rfl, fun ch hch => ?_⟩, .inr hlen⟩
        have := hpads ch hch
        simp only [standard, Option.some.injEq] at this
        exact this.symm
  have hconsumed : ∀ i : ℕ, consumed.reverse[i]? ≠ some pad := by
    intro i hi
    have hmem : pad ∈ consumed := by simpa using List.mem_of_getElem? hi
    exact absurd (hall pad hmem) (by decide)
  obtain ⟨n, hn, hcount⟩ := hpadded
  rw [hn] at hsource hbits
  have hreverse : source.reverse = List.replicate n pad ++ consumed.reverse := by
    rw [hsource, List.reverse_append, List.reverse_replicate]
  have hlast : source.reverse[0]? = some pad ↔ 1 ≤ n := by
    rw [hreverse]
    cases n with
    | zero => simpa using hconsumed 0
    | succ => simp [List.replicate_succ]
  have hbefore : source.reverse[1]? = some pad ↔ 2 ≤ n := by
    rw [hreverse]
    rcases n with _ | _ | n
    · simpa using hconsumed 1
    · simpa using hconsumed 0
    · simp [List.replicate_succ]
  rw [calcSizeForSlice_standard hsize]
  simp only [List.length_replicate] at hbits
  simp only [hlast, hbefore]
  split_ifs <;> omega

/-- The buffer allocated for an unpadded piece has exactly the size of what is decoded into
it. -/
theorem decode_length_standardNoPad (hsize : calcSizeForSlice standardNoPad source = .ok size)
    (h : decode standardNoPad source = .ok decoded) : decoded.length = size := by
  obtain ⟨result, hscan, rfl, hacc, -, hleft⟩ := decode_cases h
  have hbits := scan_bits hscan
  have hnone : (result.leftover.getD []).length = 0 := by
    cases hcase : result.leftover with
    | none => rfl
    | some leftover =>
        rw [List.length_eq_zero_iff, Option.getD_some, List.eq_nil_iff_forall_not_mem]
        intro ch hch
        have := (hleft leftover hcase).1 ch hch
        simp [standardNoPad] at this
  simp only [calcSizeForSlice, calcSizeUpperBound, standardNoPad, Option.isSome_none,
    Bool.false_eq_true, if_false] at hsize
  split at hsize
  · cases hsize
  · cases hsize
    omega

/-! ## Round trip -/

theorem charToIndex_indexToChar : ∀ index : Fin 64, charToIndex (indexToChar index) =
    some index.val := by
  decide

theorem charToIndex_pad : charToIndex pad = none := by decide

section Digits

variable {decoder : Decoder} {acc : ℕ} {index : ℕ} (hindex : index < 64) (rest : Bytes)
include hindex

theorem scan_digit {accLen : ℕ} (haccLen : accLen < 2) :
    scan decoder acc accLen (indexToChar index :: rest) =
      scan decoder ((acc * 64 + index) % 2 ^ 12) (accLen + 6) rest := by
  rw [scan, charToIndex_indexToChar ⟨index, hindex⟩]
  exact if_neg (by omega)

theorem scan_byte {accLen : ℕ} (haccLen : 2 ≤ accLen) {result : Scan}
    (hrest : scan decoder ((acc * 64 + index) % 2 ^ 12) (accLen + 6 - 8) rest = .ok result) :
    scan decoder acc accLen (indexToChar index :: rest) =
      .ok { result with
        written := ((acc * 64 + index) % 2 ^ 12 / 2 ^ (accLen + 6 - 8)).toUInt8 ::
          result.written } := by
  rw [scan, charToIndex_indexToChar ⟨index, hindex⟩]
  simp only [if_pos (show 8 ≤ accLen + 6 by omega), hrest]

end Digits

theorem scan_pad (acc accLen : ℕ) (rest : Bytes) :
    scan standard acc accLen (pad :: rest) = .ok ⟨[], acc, accLen, some (pad :: rest)⟩ := by
  rw [scan, charToIndex_pad]
  rfl

theorem toUInt8_eq_of_mod {n : ℕ} {byte : UInt8} (h : n % 256 = byte.toNat) : n.toUInt8 = byte := by
  apply UInt8.toNat_inj.mp
  rw [← h]
  exact UInt8.toNat_ofNat' ..

/-- What the loop makes of an encoding: the bytes, no bits that count, and the padding. -/
structure Scan.Whole (result : Scan) (bytes : Bytes) : Prop where
  written : result.written = bytes
  accLen_le : result.accLen ≤ 4
  acc : result.acc % 2 ^ result.accLen = 0
  leftover : result.leftover = none ∨ bytes.length % 3 ≠ 0 ∧
    result.leftover = some (List.replicate (result.accLen / 2) pad)

theorem scan_encode (bytes : Bytes) (hdecoder : bytes.length % 3 ≠ 0 → decoder = standard)
    (acc : ℕ) :
    ∃ result, scan decoder acc 0 (encode bytes) = .ok result ∧ result.Whole bytes := by
  fun_induction encode bytes generalizing acc with
  | case1 a b c rest ih =>
    have ha := a.toNat_lt
    have hb := b.toNat_lt
    have hc := c.toNat_lt
    obtain ⟨result, hrest, hwhole⟩ :=
      ih (fun h => hdecoder (by simp only [List.length_cons]; omega)) _
    rw [scan_digit (by omega) _ (by omega)]
    refine ⟨_, scan_byte (by omega) _ (by omega) (scan_byte (by omega) _ (by omega)
      (scan_byte (by omega) _ (by omega) hrest)), ?_, hwhole.accLen_le, hwhole.acc, ?_⟩
    · simp only [hwhole.written]
      congr 1
      · exact toUInt8_eq_of_mod (by omega)
      congr 1
      · exact toUInt8_eq_of_mod (by omega)
      congr 1
      exact toUInt8_eq_of_mod (by omega)
    · refine hwhole.leftover.imp_right (And.imp_left fun hlength => ?_)
      simp only [List.length_cons]
      omega
  | case2 a b =>
    have ha := a.toNat_lt
    have hb := b.toNat_lt
    obtain rfl := hdecoder (by simp)
    rw [scan_digit (by omega) _ (by omega)]
    refine ⟨_, scan_byte (by omega) _ (by omega) (scan_byte (by omega) _ (by omega)
      (scan_pad _ _ _)), ?_, by simp, ?_, .inr ⟨by simp, by simp⟩⟩
    · dsimp only
      congr 1
      · exact toUInt8_eq_of_mod (by omega)
      congr 1
      exact toUInt8_eq_of_mod (by omega)
    · simp only [Nat.reduceAdd, Nat.reduceSub, Nat.reducePow]
      omega
  | case3 a =>
    have ha := a.toNat_lt
    obtain rfl := hdecoder (by simp)
    rw [scan_digit (by omega) _ (by omega)]
    refine ⟨_, scan_byte (by omega) _ (by omega) (scan_pad _ _ _), ?_, by simp, ?_,
      .inr ⟨by simp, by simp [List.replicate]⟩⟩
    · dsimp only
      congr 1
      exact toUInt8_eq_of_mod (by omega)
    · simp only [Nat.reduceAdd, Nat.reduceSub, Nat.reducePow]
      omega
  | case4 => exact ⟨_, rfl, rfl, Nat.zero_le _, Nat.mod_one _, .inl rfl⟩

theorem encode_length (bytes : Bytes) : (encode bytes).length % 4 = 0 := by
  fun_induction encode bytes with
  | case1 a b c rest ih =>
    simp only [List.length_cons]
    omega
  | case2 | case3 | case4 => simp

theorem decode_of_scan {bytes : Bytes} (hlength : source.length % 4 = 0)
    (hscan : scan decoder 0 0 source = .ok result) (hwhole : result.Whole bytes)
    (hdecoder : bytes.length % 3 ≠ 0 → decoder = standard) : decode decoder source = .ok bytes := by
  have hbits : ¬(4 < result.accLen ∨ result.acc % 2 ^ result.accLen ≠ 0) := by
    have hle := hwhole.accLen_le
    rw [hwhole.acc]
    omega
  unfold decode
  rw [if_neg (by simp [hlength]), hscan]
  simp only [if_neg hbits]
  obtain hnone | ⟨hlength, hsome⟩ := hwhole.leftover
  · simp only [hnone, hwhole.written]
  · obtain rfl := hdecoder hlength
    simp only [hsome, hwhole.written]
    simp [standard]

theorem mem_encode {bytes : Bytes} {ch : UInt8} (h : ch ∈ encode bytes) :
    ch = pad ∨ ∃ index : Fin 64, ch = indexToChar index := by
  have hdigit : ∀ index < 64, ∃ index' : Fin 64, indexToChar index = indexToChar index' :=
    fun index hlt => ⟨⟨index, hlt⟩, rfl⟩
  fun_induction encode bytes with
  | case1 a b c rest ih =>
    have ha := a.toNat_lt
    have hb := b.toNat_lt
    have hc := c.toNat_lt
    simp only [List.mem_cons] at h
    obtain rfl | rfl | rfl | rfl | h := h
    · exact .inr (hdigit _ (by omega))
    · exact .inr (hdigit _ (by omega))
    · exact .inr (hdigit _ (by omega))
    · exact .inr (hdigit _ (by omega))
    · exact ih h
  | case2 a b =>
    have ha := a.toNat_lt
    have hb := b.toNat_lt
    simp only [List.mem_cons, List.not_mem_nil, or_false] at h
    obtain rfl | rfl | rfl | rfl := h
    · exact .inr (hdigit _ (by omega))
    · exact .inr (hdigit _ (by omega))
    · exact .inr (hdigit _ (by omega))
    · exact .inl rfl
  | case3 a =>
    have ha := a.toNat_lt
    simp only [List.mem_cons, List.not_mem_nil, or_false, or_self] at h
    obtain rfl | rfl | rfl := h
    · exact .inr (hdigit _ (by omega))
    · exact .inr (hdigit _ (by omega))
    · exact .inl rfl
  | case4 => cases h

theorem getLast?_encode (bytes : Bytes) :
    (encode bytes).getLast? = some pad ↔ bytes.length % 3 ≠ 0 := by
  have hdigit : ∀ index : Fin 64, indexToChar index ≠ pad := by decide
  fun_induction encode bytes with
  | case1 a b c rest ih =>
    have hlength : (a :: b :: c :: rest).length % 3 = rest.length % 3 := by
      simp only [List.length_cons]
      omega
    rw [hlength]
    refine Iff.trans ?_ ih
    cases hrest : encode rest with
    | nil =>
      have hc := hdigit ⟨c.toNat % 64, Nat.mod_lt _ (by decide)⟩
      simpa using hc
    | cons => simp [List.getLast?_cons_cons]
  | case2 a b => simp
  | case3 a => simp
  | case4 => simp

def decoderFor (encoded : Bytes) : Decoder :=
  if (ascii "=").isSuffixOf encoded then standard else standardNoPad

theorem decoderFor_encode (bytes : Bytes) :
    decoderFor (encode bytes) = if bytes.length % 3 ≠ 0 then standard else standardNoPad := by
  have hsuffix : (ascii "=").isSuffixOf (encode bytes) = true ↔ bytes.length % 3 ≠ 0 := by
    rw [List.isSuffixOf_iff_suffix, ← getLast?_encode]
    exact List.singleton_suffix_iff_getLast?_eq_some
  unfold decoderFor
  simp only [hsuffix]

theorem decode_encode (bytes : Bytes) : decode (decoderFor (encode bytes)) (encode bytes) =
    .ok bytes := by
  have hdecoder : bytes.length % 3 ≠ 0 → decoderFor (encode bytes) = standard := by
    intro hpadded
    rw [decoderFor_encode, if_pos hpadded]
  obtain ⟨result, hscan, hwhole⟩ := scan_encode bytes hdecoder 0
  exact decode_of_scan (encode_length bytes) hscan hwhole hdecoder

theorem calcSizeForSlice_encode (bytes : Bytes) :
    ∃ size, calcSizeForSlice (decoderFor (encode bytes)) (encode bytes) = .ok size := by
  have hlength := encode_length bytes
  rw [decoderFor_encode]
  split
  · exact ⟨_, by simp [calcSizeForSlice, calcSizeUpperBound, standard, hlength]; rfl⟩
  · exact ⟨_, by simp [calcSizeForSlice, calcSizeUpperBound, standardNoPad, hlength]; rfl⟩

end Base64

end GrpcLite
