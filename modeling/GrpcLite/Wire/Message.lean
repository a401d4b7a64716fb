import GrpcLite.Wire.Base64
import Mathlib.Tactic.IntervalCases

/-!
# Status messages

The percent encoding of `grpc-message`, as `message.zig` writes and reads it.  A decoded message is
the leftmost reading of its text: an escape stands for its byte, any other byte for itself.
-/

namespace GrpcLite.Message

def isSafe (byte : UInt8) : Bool := 0x20 ≤ byte && byte < 0x7f && byte ≠ 37

def hex (value : UInt8) : UInt8 := if value < 10 then 48 + value else 65 + value - 10

def encodeByte (byte : UInt8) : Bytes :=
  if isSafe byte then [byte] else [37, hex (byte >>> 4), hex (byte &&& 0x0f)]

def encode (message : Bytes) : Bytes := message.flatMap encodeByte

def unhex (value : UInt8) : Option UInt8 :=
  if 48 ≤ value && value ≤ 57 then some (value - 48)
  else if 97 ≤ value && value ≤ 102 then some (value - 97 + 10)
  else if 65 ≤ value && value ≤ 70 then some (value - 65 + 10)
  else none

/-- A malformed escape is kept as it is. -/
def decode : Bytes → Bytes
  | 37 :: first :: second :: rest =>
    match unhex first, unhex second with
    | some high, some low => (high <<< 4 ||| low) :: decode rest
    | _, _ => 37 :: decode (first :: second :: rest)
  | byte :: rest => byte :: decode rest
  | [] => []

/-! ## Digits -/

def HexDigit (value : ℕ) (digit : UInt8) : Prop :=
  (ascii "0123456789abcdef")[value]? = some digit ∨ (ascii "0123456789ABCDEF")[value]? = some digit

instance (value : ℕ) (digit : UInt8) : Decidable (HexDigit value digit) :=
  inferInstanceAs (Decidable (_ ∨ _))

theorem ascii_lower : ascii "0123456789abcdef" =
    [48, 49, 50, 51, 52, 53, 54, 55, 56, 57, 97, 98, 99, 100, 101, 102] := by decide

theorem ascii_upper : ascii "0123456789ABCDEF" =
    [48, 49, 50, 51, 52, 53, 54, 55, 56, 57, 65, 66, 67, 68, 69, 70] := by decide

variable {value : ℕ} {digit : UInt8} {text message : Bytes}

theorem HexDigit.lt (h : HexDigit value digit) : value < 16 := by
  obtain hlower | hupper := h
  · exact (List.getElem?_eq_some_iff.mp hlower).1
  · exact (List.getElem?_eq_some_iff.mp hupper).1

theorem HexDigit.unhex_eq (h : HexDigit value digit) : unhex digit = some (UInt8.ofNat value) := by
  have hdigits : ∀ value < 16, ∀ digits ∈ [ascii "0123456789abcdef", ascii "0123456789ABCDEF"],
      ∀ digit ∈ digits[value]?, unhex digit = some (UInt8.ofNat value) := by
    rw [ascii_lower, ascii_upper]
    decide +kernel
  obtain hlower | hupper := id h
  · exact hdigits value h.lt _ (by simp) digit hlower
  · exact hdigits value h.lt _ (by simp) digit hupper

theorem hexDigit_of_unhex {value : UInt8} (h : unhex digit = some value) :
    HexDigit value.toNat digit := by
  have hdigit : ∀ n, (48 ≤ n ∧ n ≤ 57) ∨ (97 ≤ n ∧ n ≤ 102) ∨ (65 ≤ n ∧ n ≤ 70) →
      ∀ value ∈ unhex (UInt8.ofNat n), HexDigit value.toNat (UInt8.ofNat n) := by
    unfold HexDigit
    rw [ascii_lower, ascii_upper]
    rintro n (⟨hlow, hhigh⟩ | ⟨hlow, hhigh⟩ | ⟨hlow, hhigh⟩) <;> interval_cases n <;> decide +kernel
  have hrange : (48 ≤ digit.toNat ∧ digit.toNat ≤ 57) ∨ (97 ≤ digit.toNat ∧ digit.toNat ≤ 102) ∨
      (65 ≤ digit.toNat ∧ digit.toNat ≤ 70) := by
    unfold unhex at h
    simp only [UInt8.le_iff_toNat_le, Bool.and_eq_true, decide_eq_true_eq] at h
    split_ifs at h with hdecimal hlower hupper
    · exact .inl hdecimal
    · exact .inr (.inl hlower)
    · exact .inr (.inr hupper)
  have hread := hdigit digit.toNat hrange value
  rw [UInt8.ofNat_toNat] at hread
  exact hread h

theorem HexDigit.printable (h : HexDigit value digit) :
    0x20 ≤ digit.toNat ∧ digit.toNat ≤ 0x7e := by
  have hdigits : ∀ digits ∈ [ascii "0123456789abcdef", ascii "0123456789ABCDEF"],
      ∀ digit ∈ digits, 0x20 ≤ digit.toNat ∧ digit.toNat ≤ 0x7e := by
    rw [ascii_lower, ascii_upper]
    decide +kernel
  obtain hlower | hupper := h
  · exact hdigits _ (by simp) digit (List.mem_of_getElem? hlower)
  · exact hdigits _ (by simp) digit (List.mem_of_getElem? hupper)

theorem hexDigit_hex : ∀ value < 16, HexDigit value (hex (UInt8.ofNat value)) := by
  unfold HexDigit
  rw [ascii_lower, ascii_upper]
  decide

theorem hex_digits (byte : UInt8) :
    HexDigit (byte.toNat / 16) (hex (byte >>> 4)) ∧
      HexDigit (byte.toNat % 16) (hex (byte &&& 0x0f)) := by
  have hlt := byte.toNat_lt
  have hhigh : byte >>> 4 = UInt8.ofNat (byte.toNat / 16) := by
    apply UInt8.toNat.inj
    rw [UInt8.toNat_shiftRight, UInt8.toNat_ofNat_of_lt' (by rw [UInt8.size]; omega)]
    exact Nat.shiftRight_eq_div_pow _ 4
  have hlow : byte &&& 0x0f = UInt8.ofNat (byte.toNat % 16) := by
    apply UInt8.toNat.inj
    rw [UInt8.toNat_and, UInt8.toNat_ofNat_of_lt' (by rw [UInt8.size]; omega)]
    exact Nat.and_two_pow_sub_one_eq_mod _ 4
  rw [hhigh, hlow]
  exact ⟨hexDigit_hex _ (by omega), hexDigit_hex _ (by omega)⟩

theorem hex_printable (byte : UInt8) : ∀ digit ∈ [hex (byte >>> 4), hex (byte &&& 0x0f)],
    0x20 ≤ digit.toNat ∧ digit.toNat ≤ 0x7e := by
  have hdigits := hex_digits byte
  intro digit hmem
  obtain rfl | hmem := List.mem_cons.mp hmem
  · exact hdigits.1.printable
  · obtain rfl := List.mem_singleton.mp hmem
    exact hdigits.2.printable

theorem shiftLeft_or : ∀ high low : Fin 16,
    UInt8.ofNat high <<< 4 ||| UInt8.ofNat low = UInt8.ofNat (16 * high + low) := by
  decide +kernel

/-! ## Readings -/

def StartsEscape : Bytes → Prop
  | 37 :: first :: second :: _ => (∃ high, HexDigit high first) ∧ ∃ low, HexDigit low second
  | _ => False

inductive Reads : Bytes → Bytes → Prop
  | nil : Reads [] []
  | escape {high low : ℕ} {first second : UInt8} {rest message : Bytes}
      (hfirst : HexDigit high first) (hsecond : HexDigit low second) (hrest : Reads rest message) :
      Reads (37 :: first :: second :: rest) (UInt8.ofNat (16 * high + low) :: message)
  | literal {byte : UInt8} {rest message : Bytes} (hbyte : ¬StartsEscape (byte :: rest))
      (hrest : Reads rest message) : Reads (byte :: rest) (byte :: message)

theorem decode_escape {high low : ℕ} {first second : UInt8} (hfirst : HexDigit high first)
    (hsecond : HexDigit low second) (rest : Bytes) :
    decode (37 :: first :: second :: rest) = UInt8.ofNat (16 * high + low) :: decode rest := by
  have hbyte := shiftLeft_or ⟨high, hfirst.lt⟩ ⟨low, hsecond.lt⟩
  rw [decode, hfirst.unhex_eq, hsecond.unhex_eq]
  simp only [hbyte]

theorem decode_literal {byte : UInt8} {rest : Bytes} (h : ¬StartsEscape (byte :: rest)) :
    decode (byte :: rest) = byte :: decode rest := by
  rw [decode.eq_def]
  split
  · rename_i heq
    cases heq
    split
    · rename_i hhigh hlow
      exact absurd ⟨⟨_, hexDigit_of_unhex hhigh⟩, _, hexDigit_of_unhex hlow⟩ h
    · rfl
  · rename_i heq
    cases heq
    rfl
  · rename_i heq
    cases heq

theorem Reads.decode_eq (h : Reads text message) : decode text = message := by
  induction h with
  | nil => rfl
  | escape hfirst hsecond hrest ih => rw [decode_escape hfirst hsecond, ih]
  | literal hbyte hrest ih => rw [decode_literal hbyte, ih]

theorem reads_decode (text : Bytes) : Reads text (decode text) := by
  fun_induction decode text with
  | case1 first second rest high low hlow hhigh ih =>
    have hfirst := hexDigit_of_unhex hhigh
    have hsecond := hexDigit_of_unhex hlow
    have hbyte := shiftLeft_or ⟨high.toNat, hfirst.lt⟩ ⟨low.toNat, hsecond.lt⟩
    simp only [UInt8.ofNat_toNat] at hbyte
    rw [hbyte]
    exact .escape hfirst hsecond ih
  | case2 first second rest hbad ih =>
    refine .literal ?_ ih
    rintro ⟨⟨high, hfirst⟩, low, hsecond⟩
    exact hbad _ _ hfirst.unhex_eq hsecond.unhex_eq
  | case3 byte rest hshort ih =>
    refine .literal ?_ ih
    intro hescape
    unfold StartsEscape at hescape
    split at hescape
    · rename_i first second rest' heq
      cases heq
      exact hshort first second rest' rfl rfl
    · exact hescape
  | case4 => exact .nil

theorem decode_eq_iff : decode text = message ↔ Reads text message := by
  constructor
  · rintro rfl
    exact reads_decode text
  · exact Reads.decode_eq

theorem Reads.length_le (h : Reads text message) : message.length ≤ text.length := by
  induction h with
  | nil => exact Nat.le_refl _
  | escape | literal =>
    simp only [List.length_cons]
    omega

/-! ## Round trip -/

theorem encode_cons (byte : UInt8) (message : Bytes) :
    encode (byte :: message) = encodeByte byte ++ encode message := rfl

theorem encodeByte_printable (byte : UInt8) :
    ∀ ch ∈ encodeByte byte, 0x20 ≤ ch.toNat ∧ ch.toNat ≤ 0x7e := by
  have hsafe : ∀ byte : UInt8, isSafe byte = true → 0x20 ≤ byte.toNat ∧ byte.toNat ≤ 0x7e :=
    by
      intro byte hsafe
      simp only [isSafe, UInt8.le_iff_toNat_le, UInt8.lt_iff_toNat_lt, Bool.and_eq_true,
        decide_eq_true_eq] at hsafe
      exact ⟨hsafe.1.1, Nat.le_of_lt_succ hsafe.1.2⟩
  intro ch hch
  unfold encodeByte at hch
  split at hch
  · rename_i hbyte
    obtain rfl := List.mem_singleton.mp hch
    exact hsafe ch hbyte
  · obtain rfl | hdigit := List.mem_cons.mp hch
    · decide
    · exact hex_printable byte ch hdigit

theorem encode_printable (message : Bytes) :
    ∀ ch ∈ encode message, 0x20 ≤ ch.toNat ∧ ch.toNat ≤ 0x7e := by
  intro ch hch
  obtain ⟨byte, -, hbyte⟩ := List.mem_flatMap.mp hch
  exact encodeByte_printable byte ch hbyte

theorem decode_encodeByte (byte : UInt8) (rest : Bytes) :
    decode (encodeByte byte ++ rest) = byte :: decode rest := by
  unfold encodeByte
  split
  · rename_i hsafe
    refine decode_literal ?_
    intro hescape
    unfold StartsEscape at hescape
    split at hescape
    · rename_i heq
      cases heq
      exact absurd hsafe (by decide)
    · exact hescape
  · obtain ⟨hhigh, hlow⟩ := hex_digits byte
    have hbyte : 16 * (byte.toNat / 16) + byte.toNat % 16 = byte.toNat := Nat.div_add_mod _ _
    have hdecode := decode_escape hhigh hlow rest
    rwa [hbyte, UInt8.ofNat_toNat] at hdecode

theorem decode_encode (message : Bytes) : decode (encode message) = message := by
  induction message with
  | nil => rfl
  | cons byte message ih => rw [encode_cons, decode_encodeByte, ih]

/-- An encoded message is printable and decodes to itself.  Every text has one reading, which is
never longer than the text, and decoding gives it. -/
theorem percent_encoding :
    (∀ message : Bytes, (∀ ch ∈ encode message, 0x20 ≤ ch.toNat ∧ ch.toNat ≤ 0x7e) ∧
      decode (encode message) = message) ∧
    ∀ text : Bytes, (decode text).length ≤ text.length ∧
      ∀ message, decode text = message ↔ Reads text message :=
  ⟨fun message => ⟨encode_printable message, decode_encode message⟩,
    fun text => ⟨(reads_decode text).length_le, fun _ => decode_eq_iff⟩⟩

-- The first percent sign of `%%41` starts no escape, the second does; `%4` and `%zz` stand as
-- they are.
example : decode (ascii "%%41%zz%c3%4") = [37, 65, 37, 122, 122, 195, 37, 52] := by decide

end GrpcLite.Message
