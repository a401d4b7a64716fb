import GrpcLite.Wire.Status

/-!
# Message frames

The five-byte length-prefixed frames of `frame.zig` and the incremental decoder both ends use.
The gzip codec of the standard library is a parameter.
-/

namespace GrpcLite

inductive FrameError where
  | bufferLimitExceeded
  | invalidCompressedFlag
  | compressionMismatch
  | messageTooLarge
  | malformedCompressedMessage
  | truncatedFrame
  | expectedUnaryMessage
  | outOfMemory
  deriving DecidableEq, Repr

/-- The compressor and the bounded decompressor: `decompress payload maxMessageSize`. -/
structure Gzip where
  compress : Bytes → Bytes
  decompress : Bytes → ℕ → Except FrameError Bytes

/-- The decompressor gives back what was compressed, if it is not too large. -/
def Gzip.Inverts (gzip : Gzip) : Prop :=
  ∀ payload maxMessageSize, payload.length ≤ maxMessageSize →
    gzip.decompress (gzip.compress payload) maxMessageSize = .ok payload

namespace Frame

def headerSize : ℕ := 5

def lengthBytes (length : ℕ) : Bytes :=
  [(length / 2 ^ 24).toUInt8, (length / 2 ^ 16).toUInt8, (length / 2 ^ 8).toUInt8, length.toUInt8]

def encodePayload (payload : Bytes) (compressed : Bool) : Except FrameError Bytes :=
  if 2 ^ 32 ≤ payload.length then .error .messageTooLarge
  else .ok ((if compressed then 1 else 0) :: lengthBytes payload.length ++ payload)

def encodeWithCompression (gzip : Gzip) (payload : Bytes) :
    Compression → Except FrameError Bytes
  | .identity => encodePayload payload false
  | .gzip => encodePayload (gzip.compress payload) true

theorem encodePayload_length {payload frame : Bytes} {compressed : Bool}
    (h : encodePayload payload compressed = .ok frame) :
    frame.length = headerSize + payload.length := by
  unfold encodePayload at h
  split at h
  · cases h
  · cases h
    simp only [lengthBytes, headerSize, List.length_cons, List.length_append, List.length_nil]

structure DecodedMessage where
  payload : Bytes
  consumedBytes : ℕ
  compressed : Bool
  deriving DecidableEq, Repr

structure Decoder where
  maxMessageSize : ℕ
  compression : Compression
  buffer : Bytes := []
  offset : ℕ := 0
  deriving DecidableEq, Repr

namespace Decoder

def bufferedBytes (decoder : Decoder) : ℕ := decoder.buffer.length - decoder.offset

/-- Drop the consumed bytes when nothing else is left or when they are at least half of the
buffer. -/
def compact (decoder : Decoder) : Decoder :=
  if decoder.offset = decoder.buffer.length then { decoder with buffer := [], offset := 0 }
  else if 0 < decoder.offset ∧ decoder.buffer.length / 2 ≤ decoder.offset then
    { decoder with buffer := decoder.buffer.drop decoder.offset, offset := 0 }
  else decoder

/-- `oom` says whether growing the buffer fails; the decoder is returned in both cases. -/
def feedBounded (decoder : Decoder) (bytes : Bytes) (maxBufferedBytes : ℕ) (oom : Bool) :
    Except FrameError Unit × Decoder :=
  let buffered := decoder.bufferedBytes
  if maxBufferedBytes < buffered ∨ maxBufferedBytes - buffered < bytes.length then
    (.error .bufferLimitExceeded, decoder)
  else
    let decoder := decoder.compact
    if oom then (.error .outOfMemory, decoder)
    else (.ok (), { decoder with buffer := decoder.buffer ++ bytes })

def frameLength (available : Bytes) : ℕ :=
  (available.getD 1 0).toNat * 2 ^ 24 + (available.getD 2 0).toNat * 2 ^ 16 +
    (available.getD 3 0).toNat * 2 ^ 8 + (available.getD 4 0).toNat

/-- `oom` says whether allocating the payload fails. -/
def nextMessage (gzip : Gzip) (decoder : Decoder) (oom : Bool) :
    Except FrameError (Option DecodedMessage) × Decoder :=
  let available := decoder.buffer.drop decoder.offset
  if available.length < headerSize then (.ok none, decoder)
  else
    let flag := available.getD 0 0
    let compressed : Bool := flag = 1
    let length := frameLength available
    let stop := headerSize + length
    if 1 < flag then (.error .invalidCompressedFlag, decoder)
    else if compressed ∧ decoder.compression ≠ .gzip then (.error .compressionMismatch, decoder)
    else if ¬compressed ∧ decoder.maxMessageSize < length then (.error .messageTooLarge, decoder)
    else if available.length < stop then (.ok none, decoder)
    else if oom then (.error .outOfMemory, decoder)
    else
      let body := (available.take stop).drop headerSize
      match if compressed then gzip.decompress body decoder.maxMessageSize else .ok body with
      | .error err => (.error err, decoder)
      | .ok payload =>
        (.ok (some ⟨payload, stop, compressed⟩), { decoder with offset := decoder.offset + stop })

def finish (decoder : Decoder) : Except FrameError Unit :=
  if decoder.bufferedBytes ≠ 0 then .error .truncatedFrame else .ok ()

theorem nextMessage_some {gzip : Gzip} {decoder next : Decoder} {oom : Bool}
    {message : DecodedMessage} (h : nextMessage gzip decoder oom = (.ok (some message), next)) :
    next = { decoder with offset := decoder.offset + message.consumedBytes } ∧
      headerSize ≤ message.consumedBytes ∧ message.consumedBytes ≤ decoder.bufferedBytes := by
  unfold nextMessage at h
  dsimp only at h
  split at h
  · simp at h
  iterate 3
    split at h
    · simp at h
  split at h
  · simp at h
  · rename_i hstop
    split at h
    · simp at h
    · split at h
      · simp at h
      · simp only [Prod.mk.injEq, Except.ok.injEq, Option.some.injEq] at h
        obtain ⟨rfl, rfl⟩ := h
        simp only [List.length_drop, Nat.not_lt] at hstop
        exact ⟨rfl, by simp, hstop⟩

end Decoder

/-- Exactly one message.  `oom` lists whether the three allocations it may make fail. -/
def decodeUnaryWithCompression (gzip : Gzip) (bytes : Bytes) (maxMessageSize : ℕ)
    (compression : Compression) (oom : List Bool) : Except FrameError Bytes :=
  let decoder : Decoder := { maxMessageSize := maxMessageSize, compression := compression }
  match decoder.feedBounded bytes maxU64 (oom.getD 0 false) with
  | (.error err, _) => .error err
  | (.ok _, decoder) =>
    match decoder.nextMessage gzip (oom.getD 1 false) with
    | (.error err, _) => .error err
    | (.ok none, _) => .error .truncatedFrame
    | (.ok (some message), decoder) =>
      match decoder.nextMessage gzip (oom.getD 2 false) with
      | (.error err, _) => .error err
      | (.ok (some _), _) => .error .expectedUnaryMessage
      | (.ok none, decoder) => decoder.finish.map fun _ => message.payload

end Frame

end GrpcLite
