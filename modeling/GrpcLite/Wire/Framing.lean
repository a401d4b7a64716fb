import GrpcLite.Lib.Run
import GrpcLite.Wire.Frame

/-!
# The messages of a byte stream

What the incremental decoder has taken from the bytes fed to it is a sequence of whole frames, and
what it holds is the rest.  Nothing of this depends on how the bytes were cut into chunks.
-/

namespace GrpcLite.Frame

/-- A whole frame and the message that a receiver with this limit makes of it. -/
def IsFrame (gzip : Gzip) (maxMessageSize : ℕ) (frame payload : Bytes) : Prop :=
  ∃ compressed body, encodePayload body compressed = .ok frame ∧
    if compressed then gzip.decompress body maxMessageSize = .ok payload else body = payload

theorem lengthBytes_toNat (b₁ b₂ b₃ b₄ : UInt8) :
    lengthBytes (b₁.toNat * 2 ^ 24 + b₂.toNat * 2 ^ 16 + b₃.toNat * 2 ^ 8 + b₄.toNat) =
      [b₁, b₂, b₃, b₄] := by
  have h₁ := b₁.toNat_lt
  have h₂ := b₂.toNat_lt
  have h₃ := b₃.toNat_lt
  have h₄ := b₄.toNat_lt
  unfold lengthBytes
  congr 1
  · exact Base64.toUInt8_eq_of_mod (by omega)
  congr 1
  · exact Base64.toUInt8_eq_of_mod (by omega)
  congr 1
  · exact Base64.toUInt8_eq_of_mod (by omega)
  congr 1
  · exact Base64.toUInt8_eq_of_mod (by omega)

namespace Decoder

def available (decoder : Decoder) : Bytes := decoder.buffer.drop decoder.offset

def Starved (decoder : Decoder) : Prop :=
  decoder.available.length < headerSize ∨
    decoder.available.length < headerSize + frameLength decoder.available

theorem length_available (decoder : Decoder) :
    decoder.available.length = decoder.bufferedBytes := by
  simp [available, bufferedBytes]

theorem exists_header : ∀ {bytes : Bytes}, headerSize ≤ bytes.length →
    ∃ flag b₁ b₂ b₃ b₄ rest, bytes = flag :: b₁ :: b₂ :: b₃ :: b₄ :: rest
  | flag :: b₁ :: b₂ :: b₃ :: b₄ :: rest, _ => ⟨flag, b₁, b₂, b₃, b₄, rest, rfl⟩
  | [], h | [_], h | [_, _], h | [_, _, _], h | [_, _, _, _], h => absurd h (by simp [headerSize])

theorem take_eq_encodePayload {bytes : Bytes} {compressed : Bool}
    (hflag : bytes.getD 0 0 = if compressed then 1 else 0)
    (hlength : headerSize + frameLength bytes ≤ bytes.length) :
    encodePayload ((bytes.take (headerSize + frameLength bytes)).drop headerSize) compressed =
      .ok (bytes.take (headerSize + frameLength bytes)) := by
  obtain ⟨flag, b₁, b₂, b₃, b₄, rest, rfl⟩ :=
    exists_header (Nat.le_trans (Nat.le_add_right _ _) hlength)
  have hlen : frameLength (flag :: b₁ :: b₂ :: b₃ :: b₄ :: rest) =
      b₁.toNat * 2 ^ 24 + b₂.toNat * 2 ^ 16 + b₃.toNat * 2 ^ 8 + b₄.toNat := by
    simp only [frameLength, List.getD_cons_succ, List.getD_cons_zero]
  have hbytes := lengthBytes_toNat b₁ b₂ b₃ b₄
  have hbound : frameLength (flag :: b₁ :: b₂ :: b₃ :: b₄ :: rest) < 2 ^ 32 := by
    have h₁ := b₁.toNat_lt
    have h₂ := b₂.toNat_lt
    have h₃ := b₃.toNat_lt
    have h₄ := b₄.toNat_lt
    omega
  rw [← hlen] at hbytes
  revert hlength hbound hbytes
  clear hlen
  generalize frameLength (flag :: b₁ :: b₂ :: b₃ :: b₄ :: rest) = length
  intro hlength hbytes hbound
  have hrest : length ≤ rest.length := by
    simp only [headerSize, List.length_cons] at hlength
    omega
  have htake : (flag :: b₁ :: b₂ :: b₃ :: b₄ :: rest).take (headerSize + length) =
      flag :: b₁ :: b₂ :: b₃ :: b₄ :: rest.take length := by
    have hsplit : ([flag, b₁, b₂, b₃, b₄] ++ rest).take ([flag, b₁, b₂, b₃, b₄].length + length) =
        [flag, b₁, b₂, b₃, b₄] ++ rest.take length := List.take_length_add_append length
    simpa [headerSize] using hsplit
  have hflag : flag = if compressed then 1 else 0 := hflag
  rw [htake, encodePayload, show headerSize = 4 + 1 from rfl]
  simp only [List.drop_succ_cons, List.drop_zero, List.length_take, Nat.min_eq_left hrest]
  rw [if_neg (Nat.not_le.mpr hbound), hbytes, hflag]
  simp only [List.cons_append, List.nil_append]

theorem compact_available (decoder : Decoder) : decoder.compact.available = decoder.available := by
  unfold compact available
  split
  · rename_i hall
    simp [hall]
  split
  · simp
  · rfl

theorem compact_offset (decoder : Decoder) (h : decoder.offset ≤ decoder.buffer.length) :
    decoder.compact.offset ≤ decoder.compact.buffer.length := by
  unfold compact
  split
  · exact Nat.zero_le _
  split
  · exact Nat.zero_le _
  · exact h

theorem compact_maxMessageSize (decoder : Decoder) :
    decoder.compact.maxMessageSize = decoder.maxMessageSize := by
  unfold compact
  split
  · rfl
  split <;> rfl

variable {next decoder : Decoder} {gzip : Gzip} {fuel : ℕ}

def feed (decoder : Decoder) (bytes : Bytes) : Decoder :=
  { decoder.compact with buffer := decoder.compact.buffer ++ bytes }

theorem feedBounded_cases (decoder : Decoder) (bytes : Bytes) (maxBufferedBytes : ℕ) (oom : Bool) :
    decoder.feedBounded bytes maxBufferedBytes oom = (.error .bufferLimitExceeded, decoder) ∨
      oom = true ∧
        decoder.feedBounded bytes maxBufferedBytes oom = (.error .outOfMemory, decoder.compact) ∨
      decoder.feedBounded bytes maxBufferedBytes oom = (.ok (), decoder.feed bytes) := by
  unfold feedBounded feed
  dsimp only
  split
  · exact .inl rfl
  split
  · rename_i hoom
    exact .inr (.inl ⟨hoom, rfl⟩)
  · exact .inr (.inr rfl)

theorem feedBounded_spec (decoder : Decoder) (bytes : Bytes) (maxBufferedBytes : ℕ) (oom : Bool)
    (h : decoder.offset ≤ decoder.buffer.length) {result : Except FrameError Unit}
    (hfeed : decoder.feedBounded bytes maxBufferedBytes oom = (result, next)) :
    next.offset ≤ next.buffer.length ∧ next.maxMessageSize = decoder.maxMessageSize ∧
      ((∃ err, result = .error err ∧ next.available = decoder.available) ∨
        result = .ok () ∧ next.available = decoder.available ++ bytes) := by
  have hoffset := decoder.compact_offset h
  obtain heq | ⟨-, heq⟩ | heq := decoder.feedBounded_cases bytes maxBufferedBytes oom
  all_goals
    rw [heq] at hfeed
    obtain ⟨rfl, rfl⟩ := Prod.mk.inj hfeed
  · exact ⟨h, rfl, .inl ⟨_, rfl, rfl⟩⟩
  · exact ⟨hoffset, decoder.compact_maxMessageSize, .inl ⟨_, rfl, decoder.compact_available⟩⟩
  · refine ⟨?_, decoder.compact_maxMessageSize, .inr ⟨rfl, ?_⟩⟩
    · exact Nat.le_trans hoffset (by simp [feed])
    · rw [← decoder.compact_available]
      exact List.drop_append_of_le_length hoffset

/-- What the decoder answers, and which bytes it takes for it. -/
inductive Answers (gzip : Gzip) (decoder : Decoder) :
    Except FrameError (Option DecodedMessage) × Decoder → Prop
  | starved (h : decoder.Starved) : Answers gzip decoder (.ok none, decoder)
  | failed (err : FrameError) : Answers gzip decoder (.error err, decoder)
  | message (frame : Bytes) (message : DecodedMessage)
      (hframe : IsFrame gzip decoder.maxMessageSize frame message.payload)
      (hlength : frame.length = message.consumedBytes)
      (htaken : decoder.available = frame ++ decoder.available.drop message.consumedBytes)
      (hwhole : ¬decoder.Starved) :
      Answers gzip decoder (.ok (some message), { decoder with
        offset := decoder.offset + message.consumedBytes })

theorem flag_of_not_lt {flag : UInt8} (h : ¬1 < flag) :
    flag = if decide (flag = 1) then 1 else 0 := by
  by_cases hone : flag = 1
  · simp [hone]
  · have hle : flag.toNat ≤ 1 := Nat.not_lt.mp h
    have hne : flag.toNat ≠ 1 := fun heq => hone (UInt8.toNat_inj.mp heq)
    have hzero : flag = 0 := UInt8.toNat_inj.mp (by simp; omega)
    simp [hzero]

theorem nextMessage_answers (gzip : Gzip) (decoder : Decoder) (oom : Bool) :
    Answers gzip decoder (nextMessage gzip decoder oom) := by
  unfold nextMessage
  dsimp only
  split
  · rename_i hshort
    exact .starved (.inl hshort)
  split
  · exact .failed _
  rename_i hflag
  split
  · exact .failed _
  split
  · exact .failed _
  split
  · rename_i hshort
    exact .starved (.inr hshort)
  rename_i hwhole
  split
  · exact .failed _
  have hwhole : headerSize + frameLength decoder.available ≤ decoder.available.length :=
    Nat.not_lt.mp hwhole
  split
  · exact .failed _
  rename_i hpayload
  have hlength : (decoder.available.take (headerSize + frameLength decoder.available)).length =
      headerSize + frameLength decoder.available := by
    simp [hwhole]
  refine .message (decoder.available.take (headerSize + frameLength decoder.available))
    _ ?_ hlength ?_ ?_
  · refine ⟨_, _, take_eq_encodePayload (flag_of_not_lt hflag) hwhole, ?_⟩
    split
    · rename_i hcompressed
      exact (if_pos hcompressed).symm.trans hpayload
    · rename_i hidentity
      exact Except.ok.inj ((if_neg hidentity).symm.trans hpayload)
  · exact (List.take_append_drop _ _).symm
  · rintro (hshort | hshort) <;> omega

/-! ### Decoding all that is there -/

def drain (gzip : Gzip) : ℕ → Decoder → Except FrameError Decoder
  | 0, decoder => .ok decoder
  | fuel + 1, decoder =>
    match decoder.nextMessage gzip false with
    | (.error err, _) => .error err
    | (.ok none, _) => .ok decoder
    | (.ok (some _), next) => drain gzip fuel next

theorem drain_starved (h : drain gzip fuel decoder = .ok next)
    (hfuel : decoder.bufferedBytes < fuel) : next.Starved := by
  induction fuel generalizing decoder with
  | zero => omega
  | succ fuel ih =>
    unfold drain at h
    have hanswers := nextMessage_answers gzip decoder false
    split at h
    · cases h
    · rename_i hnext
      rw [hnext] at hanswers
      cases h
      cases hanswers with
      | starved hstarved => exact hstarved
    · rename_i hnext
      obtain ⟨rfl, hheader, hconsumed⟩ := nextMessage_some hnext
      refine ih h ?_
      simp only [bufferedBytes, headerSize] at hheader hconsumed hfuel ⊢
      omega

theorem Starved.drain_eq (hstarved : decoder.Starved) (h : drain gzip fuel decoder = .ok next) :
    next = decoder := by
  cases fuel with
  | zero => cases h; rfl
  | succ =>
    unfold drain at h
    have hanswers := nextMessage_answers gzip decoder false
    split at h
    · cases h
    · cases h; rfl
    · rename_i hnext
      rw [hnext] at hanswers
      cases hanswers with
      | message frame message hframe hlength htaken hwhole => exact absurd hstarved hwhole

theorem compact_compression (decoder : Decoder) :
    decoder.compact.compression = decoder.compression := by
  unfold compact
  split
  · rfl
  split <;> rfl

theorem drain_compression (h : drain gzip fuel decoder = .ok next) :
    next.compression = decoder.compression := by
  induction fuel generalizing decoder with
  | zero => cases h; rfl
  | succ fuel ih =>
    unfold drain at h
    split at h
    · cases h
    · cases h; rfl
    · rename_i hnext
      obtain ⟨rfl, _⟩ := nextMessage_some hnext
      have hkept := ih h
      exact hkept

/-! ### The buffer over a run -/

theorem length_compact_le (h : decoder.offset ≤ decoder.buffer.length) :
    decoder.compact.buffer.length ≤ 2 * decoder.compact.bufferedBytes := by
  unfold compact bufferedBytes
  split
  · simp
  split
  · simp only [List.length_drop]
    omega
  · omega

def compactMoves (decoder : Decoder) : ℕ :=
  if decoder.offset = decoder.buffer.length then 0
  else if 0 < decoder.offset ∧ decoder.buffer.length / 2 ≤ decoder.offset then decoder.bufferedBytes
  else 0

theorem compactMoves_le (decoder : Decoder) :
    decoder.compactMoves + 2 * decoder.compact.offset ≤ 2 * decoder.offset := by
  unfold compactMoves compact bufferedBytes
  split
  · simp
  split
  · dsimp only
    omega
  · exact Nat.le_of_eq (Nat.zero_add _)

inductive Call where
  | feedBounded (bytes : Bytes) (maxBufferedBytes : ℕ) (oom : Bool)
  | nextMessage (oom : Bool)

/-- A decoder and its history: the bytes fed, how many of them the returned messages consumed, and
how many compaction moved. -/
structure Usage where
  decoder : Decoder
  fed : Bytes := []
  consumed : ℕ := 0
  moved : ℕ := 0

namespace Usage

def step (gzip : Gzip) (u : Usage) : Call → Usage
  | .feedBounded bytes maxBufferedBytes oom =>
    match u.decoder.feedBounded bytes maxBufferedBytes oom with
    | (.error .bufferLimitExceeded, next) => { u with decoder := next }
    | (.error _, next) => { u with decoder := next, moved := u.moved + u.decoder.compactMoves }
    | (.ok _, next) =>
      { u with
        decoder := next, fed := u.fed ++ bytes, moved := u.moved + u.decoder.compactMoves }
  | .nextMessage oom =>
    match Decoder.nextMessage gzip u.decoder oom with
    | (.ok (some message), next) =>
      { u with decoder := next, consumed := u.consumed + message.consumedBytes }
    | (_, next) => { u with decoder := next }

structure Sound (u : Usage) : Prop where
  inside : u.decoder.offset ≤ u.decoder.buffer.length
  fed : u.consumed ≤ u.fed.length
  unconsumed : u.decoder.available = u.fed.drop u.consumed
  paid : u.moved + 2 * u.decoder.offset ≤ 2 * u.consumed

variable {u : Usage}

theorem Sound.compact (h : u.Sound) :
    { u with decoder := u.decoder.compact, moved := u.moved + u.decoder.compactMoves }.Sound where
  inside := u.decoder.compact_offset h.inside
  fed := h.fed
  unconsumed := u.decoder.compact_available.trans h.unconsumed
  paid := by
    have := u.decoder.compactMoves_le
    have := h.paid
    dsimp only
    omega

theorem Sound.append (h : u.Sound) (bytes : Bytes) :
    { u with
      decoder := { u.decoder with buffer := u.decoder.buffer ++ bytes }
      fed := u.fed ++ bytes }.Sound where
  inside := Nat.le_trans h.inside (by simp)
  fed := Nat.le_trans h.fed (by simp)
  unconsumed := by
    rw [List.drop_append_of_le_length h.fed, ← h.unconsumed]
    exact List.drop_append_of_le_length h.inside
  paid := h.paid

theorem Sound.step (h : u.Sound) (call : Call) : (step gzip u call).Sound := by
  cases call with
  | feedBounded bytes maxBufferedBytes oom =>
    dsimp only [Usage.step]
    obtain heq | ⟨-, heq⟩ | heq := u.decoder.feedBounded_cases bytes maxBufferedBytes oom
    · rw [heq]
      exact h
    · rw [heq]
      exact h.compact
    · rw [heq]
      exact h.compact.append bytes
  | nextMessage oom =>
    dsimp only [Usage.step]
    split
    · rename_i message next hnext
      obtain ⟨rfl, hheader, hconsumed⟩ := nextMessage_some hnext
      have hlength := congrArg List.length h.unconsumed
      rw [length_available, List.length_drop] at hlength
      have hfed : u.consumed + message.consumedBytes ≤ u.fed.length := by
        unfold headerSize at hheader
        omega
      refine ⟨?_, hfed, ?_, ?_⟩
      · unfold bufferedBytes at hconsumed
        have := h.inside
        dsimp only
        omega
      · rw [← List.drop_drop, ← h.unconsumed]
        exact List.drop_drop.symm
      · have := h.paid
        dsimp only
        omega
    · rename_i hnone hnext
      have hanswers := nextMessage_answers gzip u.decoder oom
      rw [hnext] at hanswers
      cases hanswers with
      | starved | failed => exact h
      | message => exact (hnone _ rfl).elim

end Usage

/-- Over every run the bytes that are not consumed are kept in order, a feed over the limit changes
nothing, a feed leaves at most as much garbage as data, and moving costs at most twice what was
consumed. -/
theorem buffer_over_run (gzip : Gzip) (maxMessageSize : ℕ) (compression : Compression)
    (calls : List Call) : ∃ u : Usage, u = Run.final (Usage.step gzip)
        { decoder := { maxMessageSize := maxMessageSize, compression := compression } } calls ∧
      u.consumed ≤ u.fed.length ∧ u.decoder.available = u.fed.drop u.consumed ∧
      u.moved ≤ 2 * u.consumed ∧
      ∀ bytes maxBufferedBytes oom, ∃ result next,
        u.decoder.feedBounded bytes maxBufferedBytes oom = (result, next) ∧
        (result = .error .bufferLimitExceeded → next = u.decoder) ∧
        (result = .ok () → next.buffer.length ≤ 2 * next.bufferedBytes) := by
  have h : (Run.final (Usage.step gzip)
      { decoder := { maxMessageSize := maxMessageSize, compression := compression } }
      calls).Sound :=
    Run.invariant_always (fun _ call h => h.step call) calls
      ⟨Nat.le_refl _, Nat.le_refl _, rfl, Nat.le_refl _⟩
  refine ⟨_, rfl, h.fed, h.unconsumed, ?_, fun bytes maxBufferedBytes oom => ?_⟩
  · have := h.paid
    omega
  obtain heq | ⟨-, heq⟩ | heq := Decoder.feedBounded_cases _ bytes maxBufferedBytes oom
  · exact ⟨_, _, heq, fun _ => rfl, nofun⟩
  · exact ⟨_, _, heq, nofun, nofun⟩
  · refine ⟨_, _, heq, nofun, fun _ => ?_⟩
    have hhalf := length_compact_le h.inside
    unfold bufferedBytes at hhalf ⊢
    simp only [feed, List.length_append]
    have := Decoder.compact_offset _ h.inside
    omega

end Decoder

end GrpcLite.Frame
