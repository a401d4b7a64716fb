import GrpcLite.Lib.Prog
import GrpcLite.Wire.Base64
import Mathlib.Algebra.BigOperators.Group.List.Basic
import Mathlib.Tactic.Ring

/-!
# Metadata

The metadata container of `metadata.zig` and the two ways an entry enters it: `append`, for
application metadata, and `appendDecoded`, for a header field received from the peer.
-/

namespace GrpcLite

open Prog

structure Entry where
  key : Bytes
  value : Bytes
  deriving DecidableEq, Repr

inductive IncomingResult where
  | appended
  | discarded
  deriving DecidableEq, Repr

inductive MetadataError where
  | outOfMemory
  | invalidMetadataKey
  | invalidMetadataValue
  | base64 (err : Base64.DecodeError)
  deriving DecidableEq, Repr

/-- The container.  `allocator` lists whether each of the next allocations fails; once the list
is used up every allocation succeeds. -/
structure Metadata where
  allocator : List Bool := []
  entries : List Entry := []
  deriving DecidableEq, Repr

abbrev MetadataM := EStateM MetadataError Metadata

def isValidKey (key : Bytes) : Bool :=
  match key with
  | [] => false
  | first :: _ =>
    first ≠ 58 && key.all fun byte =>
      (97 ≤ byte && byte ≤ 122) || (48 ≤ byte && byte ≤ 57) || byte == 45 || byte == 95 ||
        byte == 46

def isApplicationKey (key : Bytes) : Bool :=
  isValidKey key && !(ascii "grpc-").isPrefixOf key

def isValidAsciiValue (value : Bytes) : Bool :=
  !value.isEmpty && value.all fun byte => 0x20 ≤ byte && byte ≤ 0x7e

def isBinaryKey (key : Bytes) : Bool :=
  (ascii "-bin").isSuffixOf key

def comma : UInt8 := 44

def encodeOutboundValue (key value : Bytes) : Bytes :=
  if isBinaryKey key then Base64.encode value else value

def Entry.header (entry : Entry) : Bytes × Bytes :=
  (entry.key, encodeOutboundValue entry.key entry.value)

namespace Metadata

def alloc : MetadataM Unit := do
  match (← get).allocator with
  | [] => pure ()
  | fails :: rest =>
    modify fun m => { m with allocator := rest }
    if fails then throw .outOfMemory

def appendOwned (key value : Bytes) : MetadataM Unit := do
  alloc
  alloc
  alloc
  modify fun m => { m with entries := m.entries ++ [⟨key, value⟩] }

def append (key value : Bytes) : MetadataM Unit :=
  if !isApplicationKey key then throw .invalidMetadataKey
  else if !isBinaryKey key && !isValidAsciiValue value then throw .invalidMetadataValue
  else appendOwned key value

def decodeValue (encoded : Bytes) : MetadataM Bytes := do
  let decoder := if (ascii "=").isSuffixOf encoded then Base64.standard else Base64.standardNoPad
  match Base64.calcSizeForSlice decoder encoded with
  | .error err => throw (.base64 err)
  | .ok _ =>
    alloc
    match Base64.decode decoder encoded with
    | .error err => throw (.base64 err)
    | .ok decoded =>
      alloc
      pure decoded

def decodeValues : List Bytes → MetadataM (List Bytes)
  | [] => pure []
  | encoded :: rest => do
    let decoded ← decodeValue encoded
    let others ← decodeValues rest
    pure (decoded :: others)

def appendAll (key : Bytes) : List Bytes → MetadataM Unit
  | [] => pure ()
  | decoded :: rest => do
    appendOwned key decoded
    appendAll key rest

def appendDecoded (key value : Bytes) : MetadataM IncomingResult :=
  if !isApplicationKey key then throw .invalidMetadataKey
  else if !isBinaryKey key then
    if !isValidAsciiValue value then pure .discarded
    else do
      appendOwned key value
      pure .appended
  else do
    let decodedValues ← decodeValues (value.splitOn comma)
    let originalLen := (← get).entries.length
    tryCatch (appendAll key decodedValues) fun err => do
      modify fun m => { m with entries := m.entries.take originalLen }
      throw err
    pure .appended

/-! ## What a field decodes to -/

def decodedPiece (encoded : Bytes) : Except MetadataError Bytes :=
  let decoder := if (ascii "=").isSuffixOf encoded then Base64.standard else Base64.standardNoPad
  match Base64.calcSizeForSlice decoder encoded with
  | .error err => .error (.base64 err)
  | .ok _ => (Base64.decode decoder encoded).mapError .base64

def decodedPieces : List Bytes → Except MetadataError (List Bytes)
  | [] => .ok []
  | encoded :: rest => do
    let decoded ← decodedPiece encoded
    let others ← decodedPieces rest
    pure (decoded :: others)

theorem decodedPieces_error : ∀ {pieces : List Bytes} {err : MetadataError},
    decodedPieces pieces = .error err → ∃ cause, err = .base64 cause
  | [], _, h => nomatch h
  | encoded :: rest, err, h => by
    have hpiece : ∀ {other}, decodedPiece encoded = .error other →
        ∃ cause, other = .base64 cause := by
      intro other hother
      unfold decodedPiece at hother
      dsimp only at hother
      split at hother
      · cases hother
        exact ⟨_, rfl⟩
      · unfold Except.mapError at hother
        split at hother
        · cases hother
          exact ⟨_, rfl⟩
        · cases hother
    simp only [decodedPieces] at h
    cases hdecoded : decodedPiece encoded with
    | error =>
      rw [hdecoded] at h
      cases h
      exact hpiece hdecoded
    | ok =>
      rw [hdecoded] at h
      cases hothers : decodedPieces rest with
      | error =>
        rw [hothers] at h
        cases h
        exact decodedPieces_error hothers
      | ok =>
        rw [hothers] at h
        cases h

def received (key value : Bytes) : Except MetadataError (List Entry) :=
  if !isApplicationKey key then .error .invalidMetadataKey
  else if !isBinaryKey key then .ok (if isValidAsciiValue value then [⟨key, value⟩] else [])
  else (decodedPieces (value.splitOn comma)).map fun values => values.map (Entry.mk key)

/-! ## Under any allocator -/

/-- An operation makes its allocations from `m` on: none of them fails if the list is used up. -/
def Spends (m m' : Metadata) : Prop := m.allocator = [] → m'.allocator = []

/-- An operation that should compute `expected` fails with `err`. -/
def Failure {α : Type} (expected : Except MetadataError α) (m : Metadata) (err : MetadataError)
    (m' : Metadata) : Prop :=
  (err = .outOfMemory ∧ m.allocator ≠ [] ∨ expected = .error err) ∧ m'.entries = m.entries ∧
    Spends m m'

theorem Spends.trans {m m₁ m₂ : Metadata} (h : Spends m m₁) (h' : Spends m₁ m₂) : Spends m m₂ :=
  h' ∘ h

section Specs

variable {α β : Type} {expected : Except MetadataError α} {expected' : Except MetadataError β}
  {Q : Unit → Metadata → Prop} {E : MetadataError → Metadata → Prop} {m m₁ m' : Metadata}
  {err : MetadataError}

theorem Failure.after (h : Failure expected m₁ err m') (hentries : m₁.entries = m.entries)
    (hspends : Spends m m₁) (himp : expected = .error err → expected' = .error err) :
    Failure expected' m err m' :=
  ⟨h.1.imp (fun hfault => ⟨hfault.1, fun hnone => hfault.2 (hspends hnone)⟩) himp,
    h.2.1.trans hentries, hspends.trans h.2.2⟩

theorem alloc_wp (hQ : ∀ answers, (m.allocator = [] → answers = []) → Q () ⟨answers, m.entries⟩)
    (hE : m.allocator ≠ [] → ∀ answers, E .outOfMemory ⟨answers, m.entries⟩) : wp alloc Q E m := by
  obtain ⟨allocator, entries⟩ := m
  cases allocator with
  | nil => simpa [alloc] using hQ [] id
  | cons fails rest =>
    have hsome : fails :: rest ≠ [] := List.cons_ne_nil _ _
    cases fails with
    | false => simpa [alloc] using hQ rest fun hnone => absurd hnone hsome
    | true => simpa [alloc] using hE hsome rest

theorem appendOwned_wp (key value : Bytes)
    (hQ : ∀ answers, (m.allocator = [] → answers = []) →
      Q () ⟨answers, m.entries ++ [⟨key, value⟩]⟩)
    (hE : m.allocator ≠ [] → ∀ answers, E .outOfMemory ⟨answers, m.entries⟩) :
    wp (appendOwned key value) Q E m := by
  simp only [appendOwned, wp_bind, wp_modify]
  refine alloc_wp (fun first hfirst => ?_) hE
  refine alloc_wp (fun second hsecond => ?_) fun hsome => hE (mt hfirst hsome)
  refine alloc_wp (fun third hthird => ?_) fun hsome => hE (mt (hsecond ∘ hfirst) hsome)
  exact hQ third (hthird ∘ hsecond ∘ hfirst)

theorem decodeValue_spec (encoded : Bytes) (m : Metadata) :
    wp (decodeValue encoded)
      (fun decoded m' => decodedPiece encoded = .ok decoded ∧ m'.entries = m.entries ∧ Spends m m')
      (Failure (decodedPiece encoded) m) m := by
  unfold decodeValue decodedPiece
  dsimp only
  generalize ite ((ascii "=").isSuffixOf encoded = true) Base64.standard Base64.standardNoPad =
    decoder
  cases Base64.calcSizeForSlice decoder encoded with
  | error => exact ⟨.inr rfl, rfl, id⟩
  | ok =>
    simp only [wp_bind]
    refine alloc_wp (fun first hfirst => ?_) fun hsome _ =>
      ⟨.inl ⟨rfl, hsome⟩, rfl, fun hnone => absurd hnone hsome⟩
    cases Base64.decode decoder encoded with
    | error => exact ⟨.inr rfl, rfl, hfirst⟩
    | ok =>
      simp only [wp_bind, wp_pure]
      refine alloc_wp (fun second hsecond => ⟨rfl, rfl, hsecond ∘ hfirst⟩) fun hsome _ => ?_
      exact ⟨.inl ⟨rfl, mt hfirst hsome⟩, rfl, fun hnone => absurd (hfirst hnone) hsome⟩

theorem decodeValues_spec (pieces : List Bytes) (m : Metadata) :
    wp (decodeValues pieces)
      (fun decoded m' => decodedPieces pieces = .ok decoded ∧ m'.entries = m.entries ∧ Spends m m')
      (Failure (decodedPieces pieces) m) m := by
  induction pieces generalizing m with
  | nil => exact ⟨rfl, rfl, id⟩
  | cons encoded rest ih =>
    simp only [decodeValues, decodedPieces, wp_bind, wp_pure]
    refine wp_mono (decodeValue_spec encoded m) ?_ ?_
    · rintro decoded m₁ ⟨hdecoded, hentries, hspends⟩
      refine wp_mono (ih m₁) ?_ ?_
      · rintro others m₂ ⟨hothers, hentries', hspends'⟩
        rw [hdecoded, hothers]
        exact ⟨rfl, hentries'.trans hentries, hspends.trans hspends'⟩
      · intro err m₂ hfailure
        refine hfailure.after hentries hspends fun herr => ?_
        rw [hdecoded, herr]
        rfl
    · intro err m₁ hfailure
      refine hfailure.after rfl id fun herr => ?_
      rw [herr]
      rfl

theorem appendAll_spec (key : Bytes) (values : List Bytes) (m : Metadata) :
    wp (appendAll key values)
      (fun _ m' => m'.entries = m.entries ++ values.map (Entry.mk key) ∧ Spends m m')
      (fun err m' => (err = .outOfMemory ∧ m.allocator ≠ []) ∧ m.entries <+: m'.entries) m := by
  induction values generalizing m with
  | nil => simp [appendAll, Spends]
  | cons value rest ih =>
    simp only [appendAll, wp_bind]
    refine appendOwned_wp key value (fun answers hanswers => ?_) fun hsome _ =>
      ⟨⟨rfl, hsome⟩, List.prefix_refl _⟩
    refine wp_mono (ih _) ?_ ?_
    · rintro _ m' ⟨hentries, hspends⟩
      exact ⟨by simpa using hentries, hspends ∘ hanswers⟩
    · rintro err m' ⟨⟨herr, hsome⟩, hkept⟩
      exact ⟨⟨herr, mt hanswers hsome⟩, (List.prefix_append _ _).trans hkept⟩

end Specs

variable {key value piece : Bytes} {new : List Entry} {pieces decoded : List Bytes}

theorem decodedPieces_cons_ok (h : decodedPieces (piece :: pieces) = .ok decoded) :
    ∃ value others, decodedPiece piece = .ok value ∧ decodedPieces pieces = .ok others ∧
      value :: others = decoded := by
  unfold decodedPieces at h
  cases hpiece : decodedPiece piece with
  | error =>
    rw [hpiece] at h
    cases h
  | ok value =>
    cases hrest : decodedPieces pieces with
    | error =>
      rw [hpiece, hrest] at h
      cases h
    | ok others =>
      rw [hpiece, hrest] at h
      exact ⟨value, others, rfl, rfl, Except.ok.inj h⟩

theorem decodedPieces_length (h : decodedPieces pieces = .ok decoded) :
    decoded.length = pieces.length := by
  induction pieces generalizing decoded with
  | nil =>
    cases h
    rfl
  | cons piece pieces ih =>
    obtain ⟨value, others, -, hrest, rfl⟩ := decodedPieces_cons_ok h
    rw [List.length_cons, List.length_cons, ih hrest]

/-- `appendDecoded` adds `received`, all of it or nothing. -/
theorem appendDecoded_spec (key value : Bytes) (m : Metadata) :
    wp (appendDecoded key value)
      (fun result m' => ∃ new, received key value = .ok new ∧ m'.entries = m.entries ++ new ∧
        (result = .discarded ↔ new = []) ∧ Spends m m')
      (Failure (received key value) m) m := by
  unfold appendDecoded received
  split
  · exact ⟨.inr rfl, rfl, id⟩
  split
  · cases hvalid : isValidAsciiValue value with
    | false => exact ⟨[], rfl, by simp, by simp, id⟩
    | true =>
      simp only [Bool.not_true, Bool.false_eq_true, if_false, wp_bind, wp_pure, if_true]
      refine appendOwned_wp key value (fun _ hspends => ⟨_, rfl, rfl, by simp, hspends⟩) ?_
      exact fun hsome _ => ⟨.inl ⟨rfl, hsome⟩, rfl, fun hnone => absurd hnone hsome⟩
  simp only [wp_bind, wp_get, wp_tryCatch, wp_modify, wp_throw, wp_pure]
  refine wp_mono (decodeValues_spec _ m) ?_ ?_
  · rintro values m₁ ⟨hvalues, hentries, hspends⟩
    refine wp_mono (appendAll_spec key values m₁) ?_ ?_
    · rintro _ m₂ ⟨hm₂, hspends'⟩
      have hsome : values ≠ [] := by
        rintro rfl
        exact List.splitOn_ne_nil comma value (List.length_eq_zero_iff.mp
          (decodedPieces_length hvalues).symm)
      refine ⟨values.map (Entry.mk key), by rw [hvalues]; rfl, by rw [hm₂, hentries], ?_,
        hspends.trans hspends'⟩
      simp [hsome]
    · rintro err m₂ ⟨⟨rfl, hsome⟩, hkept⟩
      exact ⟨.inl ⟨rfl, mt hspends hsome⟩, (List.prefix_iff_eq_take.mp hkept).symm.trans hentries,
        fun hnone => absurd (hspends hnone) hsome⟩
  · intro err m₁ hfailure
    refine hfailure.after rfl id fun herr => ?_
    rw [herr]
    rfl

theorem received_error {err : MetadataError} (h : received key value = .error err) :
    err ≠ .outOfMemory := by
  unfold received at h
  split at h
  · cases h
    decide
  split at h
  · cases h
  cases hpieces : decodedPieces (value.splitOn comma) with
  | error =>
    rw [hpieces] at h
    cases h
    obtain ⟨cause, rfl⟩ := decodedPieces_error hpieces
    simp
  | ok =>
    rw [hpieces] at h
    cases h

theorem appendDecoded_unfailing (entries : List Entry) (key value : Bytes) :
    wp (appendDecoded key value)
      (fun _ m => ∃ new, received key value = .ok new ∧ m = ⟨[], entries ++ new⟩)
      (fun err m => received key value = .error err ∧ err ≠ .outOfMemory ∧ m = ⟨[], entries⟩)
      ⟨[], entries⟩ := by
  refine wp_mono (appendDecoded_spec key value _) ?_ ?_
  · rintro _ ⟨_, _⟩ ⟨new, hnew, rfl, -, hspends⟩
    cases hspends rfl
    exact ⟨new, hnew, rfl⟩
  · rintro err ⟨_, _⟩ ⟨herr, rfl, hspends⟩
    cases hspends rfl
    have herr := herr.resolve_left fun hfault => hfault.2 rfl
    exact ⟨herr, received_error herr, rfl⟩

theorem appendDecoded_spends (key value : Bytes) (m : Metadata) :
    wp (appendDecoded key value) (fun _ => Spends m) (fun _ => Spends m) m :=
  wp_mono (appendDecoded_spec key value m) (fun _ _ ⟨_, _, _, _, h⟩ => h) fun _ _ h => h.2.2

/-! ## Retained bytes -/

def retained (m : Metadata) : ℕ :=
  (m.entries.map fun entry => entry.key.length + entry.value.length).sum

/-- The bytes of the key copies that a binary field adds beyond its own size: one copy of the
key for each comma of the value. -/
def expansion (key value : Bytes) : ℕ :=
  if isBinaryKey key then key.length * value.count comma else 0

theorem splitOn_lengths (value : Bytes) :
    (value.splitOn comma).length = value.count comma + 1 ∧
      ((value.splitOn comma).map List.length).sum + value.count comma = value.length := by
  induction value with
  | nil => simp
  | cons byte rest ih =>
      rw [List.splitOn_cons_eq_if_modifyHead]
      by_cases hbyte : byte = comma
      · subst hbyte
        simp only [beq_self_eq_true, if_true, List.length_cons, List.map_cons, List.sum_cons,
          List.length_nil, List.count_cons_self]
        omega
      · obtain ⟨piece, pieces, hsplit⟩ :=
          List.exists_cons_of_ne_nil (List.splitOn_ne_nil comma rest)
        rw [hsplit] at ih ⊢
        simp only [beq_iff_eq, hbyte, if_false, List.modifyHead_cons, List.length_cons,
          List.map_cons, List.sum_cons, List.count_cons_of_ne hbyte] at ih ⊢
        omega

theorem decodedPiece_length_le {encoded decoded : Bytes} (h : decodedPiece encoded = .ok decoded) :
    decoded.length ≤ encoded.length := by
  unfold decodedPiece at h
  dsimp only at h
  split at h
  · cases h
  unfold Except.mapError at h
  split at h
  · cases h
  rename_i hdecode
  cases h
  exact Base64.decode_length_le hdecode

theorem decodedPieces_sum_le (key : Bytes) (h : decodedPieces pieces = .ok decoded) :
    retained ⟨[], decoded.map (Entry.mk key)⟩ ≤
      pieces.length * key.length + (pieces.map List.length).sum := by
  induction pieces generalizing decoded with
  | nil =>
    cases h
    simp [retained]
  | cons piece pieces ih =>
    obtain ⟨value, others, hpiece, hrest, rfl⟩ := decodedPieces_cons_ok h
    have hvalue := decodedPiece_length_le hpiece
    have hothers := ih hrest
    simp only [retained, List.map_cons, List.sum_cons, List.length_cons] at hothers ⊢
    rw [Nat.add_mul]
    omega

theorem received_retained (h : received key value = .ok new) :
    retained ⟨[], new⟩ ≤ key.length + value.length + expansion key value := by
  unfold received at h
  split at h
  · cases h
  by_cases hbinary : isBinaryKey key = true
  · obtain ⟨hlength, hbytes⟩ := splitOn_lengths value
    simp only [hbinary, Bool.not_true, Bool.false_eq_true, if_false] at h
    cases hpieces : decodedPieces (value.splitOn comma) with
    | error =>
      rw [hpieces] at h
      cases h
    | ok values =>
      rw [hpieces] at h
      obtain rfl : values.map (Entry.mk key) = new := Except.ok.inj h
      have hsum := decodedPieces_sum_le key hpieces
      rw [hlength, Nat.add_mul, Nat.mul_comm] at hsum
      rw [expansion, if_pos hbinary]
      omega
  · simp only [hbinary, Bool.not_false, if_true] at h
    cases h
    split <;> simp [retained]

/-- A received field adds its own size and, if it is binary, one further copy of the key for
each comma; a failed one adds nothing. -/
theorem appendDecoded_wp (key value : Bytes) (m : Metadata) :
    wp (appendDecoded key value)
      (fun _ m' => retained m' ≤ retained m + (key.length + value.length) + expansion key value)
      (fun _ m' => m'.entries = m.entries) m := by
  refine wp_mono (appendDecoded_spec key value m) ?_ fun _ _ h => h.2.1
  rintro _ m' ⟨new, hnew, hentries, -⟩
  have hadded := received_retained hnew
  simp only [retained, hentries, List.map_append, List.sum_append] at hadded ⊢
  omega

end Metadata

end GrpcLite
