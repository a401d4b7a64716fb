import GrpcLite.Lib.Incremental
import GrpcLite.Wire.Framing
import Mathlib.Data.List.GetD

/-!
# The frame codec

The incremental decoder gives the same messages and the same end for every cutting of its input,
well formed or not; a sequence of encoded frames decodes to its payloads; and `decodeUnary` accepts
exactly the inputs of one message.
-/

namespace GrpcLite.Frame

open Incremental (Answer Stable Decodes Session)

variable {gzip : Gzip} {maxMessageSize : ℕ} {compression : Compression}

/-! ## One answer -/

/-- The answer on the bytes that are available. -/
def answer (gzip : Gzip) (maxMessageSize : ℕ) (compression : Compression) (available : Bytes) :
    Answer DecodedMessage FrameError :=
  match (Decoder.nextMessage gzip { maxMessageSize, compression, buffer := available } false).1 with
  | .ok none => .starved
  | .error err => .failed err
  | .ok (some message) => .message message message.consumedBytes

/-- `nextMessage` looks at the available bytes only. -/
theorem nextMessage_eq (decoder : Decoder) :
    decoder.nextMessage gzip false =
      match answer gzip decoder.maxMessageSize decoder.compression decoder.available with
      | .starved => (.ok none, decoder)
      | .failed err => (.error err, decoder)
      | .message message size =>
        (.ok (some message), { decoder with offset := decoder.offset + size }) := by
  unfold answer Decoder.nextMessage Decoder.available
  simp only [List.drop_zero]
  generalize decoder.buffer.drop decoder.offset = bytes
  split
  · rfl
  split
  · rfl
  split
  · rfl
  split
  · rfl
  split
  · rfl
  split
  · rfl
  · split
    · rfl
    · rfl

variable {bytes frame payload : Bytes}

theorem frameLength_append {more : Bytes} (h : headerSize ≤ bytes.length) :
    Decoder.frameLength (bytes ++ more) = Decoder.frameLength bytes := by
  simp only [headerSize] at h
  simp (disch := omega) only [Decoder.frameLength, List.getD_append]

theorem answer_append (h : answer gzip maxMessageSize compression bytes ≠ .starved) (more : Bytes) :
    answer gzip maxMessageSize compression (bytes ++ more) =
      answer gzip maxMessageSize compression bytes := by
  by_cases hheader : bytes.length < headerSize
  · exact absurd (by simp [answer, Decoder.nextMessage, hheader]) h
  have hheader' : ¬(bytes ++ more).length < headerSize := by
    rw [List.length_append]
    omega
  have hflag : (bytes ++ more).getD 0 0 = bytes.getD 0 0 :=
    List.getD_append _ _ _ _ (by simp only [headerSize] at hheader; omega)
  have hlength : Decoder.frameLength (bytes ++ more) = Decoder.frameLength bytes :=
    frameLength_append (Nat.not_lt.mp hheader)
  revert h
  simp only [answer, Decoder.nextMessage, List.drop_zero, hheader, hheader', if_false, hflag,
    hlength]
  -- The header decides up to the length of the body; only then does the rest of the input count.
  by_cases hinvalid : 1 < bytes.getD 0 0
  · simp only [if_pos hinvalid]
    exact fun _ => trivial
  by_cases hmismatch : decide (bytes.getD 0 0 = 1) = true ∧ compression ≠ .gzip
  · simp only [hinvalid, if_false, if_pos hmismatch]
    exact fun _ => trivial
  by_cases hlarge : ¬decide (bytes.getD 0 0 = 1) = true ∧ maxMessageSize < Decoder.frameLength bytes
  · simp only [hinvalid, if_false, if_neg hmismatch, if_pos hlarge]
    exact fun _ => trivial
  simp only [hinvalid, if_false, if_neg hmismatch, if_neg hlarge]
  by_cases hwhole : bytes.length < headerSize + Decoder.frameLength bytes
  · simp [hwhole]
  · have hwhole' : ¬(bytes ++ more).length < headerSize + Decoder.frameLength bytes := by
      rw [List.length_append]
      omega
    have htake : (bytes ++ more).take (headerSize + Decoder.frameLength bytes) =
        bytes.take (headerSize + Decoder.frameLength bytes) :=
      List.take_append_of_le_length (Nat.not_lt.mp hwhole)
    intro _
    simp only [hwhole, hwhole', if_false, htake, Bool.false_eq_true]
    generalize hbody : (if decide (bytes.getD 0 0 = 1) = true then
      gzip.decompress ((bytes.take (headerSize + Decoder.frameLength bytes)).drop headerSize)
        maxMessageSize
      else .ok ((bytes.take (headerSize + Decoder.frameLength bytes)).drop headerSize)) = body
    cases body <;> rfl

theorem answer_size {message : DecodedMessage} {size : ℕ}
    (h : answer gzip maxMessageSize compression bytes = .message message size) :
    size = message.consumedBytes ∧ 0 < size ∧ size ≤ bytes.length := by
  unfold answer at h
  split at h
  · cases h
  · cases h
  · rename_i hnext
    cases h
    obtain ⟨-, hheader, hconsumed⟩ := Decoder.nextMessage_some (Prod.ext hnext rfl)
    simp only [headerSize] at hheader
    refine ⟨rfl, by omega, ?_⟩
    simpa [Decoder.bufferedBytes] using hconsumed

theorem answer_stable : Stable (answer gzip maxMessageSize compression) where
  failed more h := by rw [answer_append (by rw [h]; nofun), h]
  message more h := by rw [answer_append (by rw [h]; nofun), h]
  size h := (answer_size h).2

/-! ## Sessions -/

namespace Decoder

/-- Takes messages until there is no whole one or one is in error. -/
def messages (gzip : Gzip) : ℕ → Decoder → List DecodedMessage × Except FrameError Decoder
  | 0, decoder => ([], .ok decoder)
  | fuel + 1, decoder =>
    match decoder.nextMessage gzip false with
    | (.error err, _) => ([], .error err)
    | (.ok none, decoder) => ([], .ok decoder)
    | (.ok (some message), decoder) =>
      let (rest, outcome) := messages gzip fuel decoder
      (message :: rest, outcome)

/-- Feeds the chunks and drains the decoder after each, up to the first error. -/
def session (gzip : Gzip) (decoder : Decoder) :
    List Bytes → List DecodedMessage × Except FrameError Decoder
  | [] => ([], .ok decoder)
  | chunk :: chunks =>
    match decoder.feedBounded chunk maxU64 false with
    | (.error err, _) => ([], .error err)
    | (.ok _, decoder) =>
      match messages gzip (decoder.bufferedBytes + 1) decoder with
      | (taken, .error err) => (taken, .error err)
      | (taken, .ok decoder) =>
        let (rest, outcome) := session gzip decoder chunks
        (taken ++ rest, outcome)

variable (gzip : Gzip) {decoder : Decoder}

theorem messages_decodes {fuel : ℕ} (hfuel : decoder.bufferedBytes < fuel) :
    ∃ outcome, Decodes (answer gzip decoder.maxMessageSize decoder.compression) decoder.available
        (messages gzip fuel decoder).1 outcome ∧
      match outcome with
      | .error err => (messages gzip fuel decoder).2 = .error err
      | .ok rest => ∃ next, (messages gzip fuel decoder).2 = .ok next ∧ next.available = rest ∧
          next.maxMessageSize = decoder.maxMessageSize ∧ next.compression = decoder.compression ∧
            (decoder.offset ≤ decoder.buffer.length → next.offset ≤ next.buffer.length) := by
  induction fuel generalizing decoder with
  | zero => omega
  | succ fuel ih =>
    simp only [messages, nextMessage_eq]
    cases hanswer : answer gzip decoder.maxMessageSize decoder.compression decoder.available with
    | starved => exact ⟨_, .starved hanswer, decoder, rfl, rfl, rfl, rfl, id⟩
    | failed => exact ⟨_, .failed hanswer, rfl⟩
    | message message size =>
      obtain ⟨-, hpos, hsize⟩ := answer_size hanswer
      rw [length_available] at hsize
      have hshorter : { decoder with offset := decoder.offset + size }.bufferedBytes < fuel := by
        simp only [bufferedBytes] at hfuel hsize ⊢
        omega
      obtain ⟨outcome, hdecodes, houtcome⟩ := ih hshorter
      have hdrop : { decoder with offset := decoder.offset + size }.available =
          decoder.available.drop size := by
        simp only [available, List.drop_drop]
      rw [hdrop] at hdecodes
      refine ⟨outcome, .message hanswer hdecodes, ?_⟩
      cases outcome with
      | error => exact houtcome
      | ok =>
        obtain ⟨next, hnext, hrest, hmax, hcompression, hoffset⟩ := houtcome
        refine ⟨next, hnext, hrest, hmax, hcompression, fun hle => hoffset ?_⟩
        simp only [bufferedBytes] at hsize ⊢
        omega

/-- A session decodes what is available and its chunks, as long as the sizes fit a machine word. -/
theorem session_eq (chunks : List Bytes) (hoffset : decoder.offset ≤ decoder.buffer.length)
    (hfits : decoder.bufferedBytes + chunks.flatten.length ≤ maxU64) :
    ∃ outcome, Session (answer gzip decoder.maxMessageSize decoder.compression) decoder.available
        chunks (session gzip decoder chunks).1 outcome ∧
      (session gzip decoder chunks).2.map available = outcome := by
  induction chunks generalizing decoder with
  | nil => exact ⟨_, .idle, rfl⟩
  | cons chunk chunks ih =>
    simp only [List.flatten_cons, List.length_append] at hfits
    have hfeed : decoder.feedBounded chunk maxU64 false = (.ok (), decoder.feed chunk) := by
      unfold feedBounded feed
      rw [if_neg (by omega)]
      rfl
    obtain ⟨hoffset', hmax, hsplit⟩ := feedBounded_spec decoder chunk maxU64 false hoffset hfeed
    have havailable : (decoder.feed chunk).available = decoder.available ++ chunk := by
      obtain ⟨err, herr, -⟩ | ⟨-, havailable⟩ := hsplit
      · cases herr
      · exact havailable
    have hcompression : (decoder.feed chunk).compression = decoder.compression :=
      decoder.compact_compression
    obtain ⟨outcome, hdecodes, houtcome⟩ :=
      messages_decodes gzip (Nat.lt_succ_self (decoder.feed chunk).bufferedBytes)
    rw [havailable, hmax, hcompression] at hdecodes
    simp only [session, hfeed]
    generalize messages gzip ((decoder.feed chunk).bufferedBytes + 1) (decoder.feed chunk) =
      drained at hdecodes houtcome
    obtain ⟨taken, result⟩ := drained
    cases outcome with
    | error err =>
      obtain rfl : result = .error err := houtcome
      exact ⟨_, .stopped hdecodes, rfl⟩
    | ok =>
      obtain ⟨next, hnext, hrest, hmax', hcompression', hoffset''⟩ := houtcome
      obtain rfl : result = .ok next := hnext
      have hshorter : next.bufferedBytes + chunks.flatten.length ≤ maxU64 := by
        have hlength := hdecodes.length_le
        rw [← hrest, List.length_append, length_available, length_available] at hlength
        omega
      obtain ⟨outcome, hsession, heq⟩ := ih (hoffset'' hoffset') hshorter
      rw [hrest, hmax', hcompression', hmax, hcompression] at hsession
      exact ⟨outcome, .more hdecodes hsession, heq⟩

end Decoder

def fresh (maxMessageSize : ℕ) (compression : Compression) : Decoder :=
  { maxMessageSize, compression }

theorem answer_nil : answer gzip maxMessageSize compression [] = .starved := rfl

theorem session_decodes (gzip : Gzip) (maxMessageSize : ℕ) (compression : Compression)
    {chunks : List Bytes} (hfits : chunks.flatten.length ≤ maxU64) :
    Decodes (answer gzip maxMessageSize compression) chunks.flatten
      ((fresh maxMessageSize compression).session gzip chunks).1
      (((fresh maxMessageSize compression).session gzip chunks).2.map Decoder.available) := by
  have hbuffered : (fresh maxMessageSize compression).bufferedBytes = 0 := rfl
  have hlimit : (fresh maxMessageSize compression).bufferedBytes + chunks.flatten.length ≤
      maxU64 := by
    rwa [hbuffered, Nat.zero_add]
  obtain ⟨outcome, hsession, rfl⟩ := Decoder.session_eq gzip chunks (Nat.le_refl _) hlimit
  exact hsession.decodes answer_stable answer_nil

/-! ## Encoded frames -/

theorem frameLength_cons (flag : UInt8) {length : ℕ} (hlength : length < 2 ^ 32) (rest : Bytes) :
    Decoder.frameLength (flag :: (lengthBytes length ++ rest)) = length := by
  simp only [Decoder.frameLength, lengthBytes, List.cons_append, List.nil_append,
    List.getD_cons_succ, List.getD_cons_zero, Nat.toUInt8_eq, UInt8.toNat_ofNat']
  omega

/-- The decoder takes an encoded frame that it may decompress and that is not too large. -/
theorem answer_encodePayload {body : Bytes} {compressed : Bool}
    (hframe : encodePayload body compressed = .ok frame)
    (hcompression : compressed = true → compression = .gzip)
    (hlarge : compressed = false → body.length ≤ maxMessageSize)
    (hpayload : (if compressed then gzip.decompress body maxMessageSize else .ok body) =
      .ok payload)
    (rest : Bytes) :
    answer gzip maxMessageSize compression (frame ++ rest) =
      .message ⟨payload, frame.length, compressed⟩ frame.length := by
  have hlength := encodePayload_length hframe
  unfold encodePayload at hframe
  split at hframe
  · cases hframe
  rename_i hbody
  obtain rfl := Except.ok.inj hframe
  have hframeLength : Decoder.frameLength
      (((if compressed then 1 else 0) :: lengthBytes body.length ++ body) ++ rest) =
        body.length := by
    simp only [List.cons_append, List.append_assoc]
    exact frameLength_cons _ (Nat.not_le.mp hbody) _
  have hbodyBytes :
      ((((if compressed then 1 else 0) :: lengthBytes body.length ++ body) ++ rest).take
      (headerSize + body.length)).drop headerSize = body := by
    rw [← hlength, List.take_left]
    rfl
  have hwhole : headerSize + body.length ≤
      (((if compressed then 1 else 0) :: lengthBytes body.length ++ body) ++ rest).length := by
    rw [List.length_append, hlength]
    omega
  generalize hbytes : ((if compressed then 1 else 0) :: lengthBytes body.length ++ body) ++ rest =
    bytes at hframeLength hbodyBytes hwhole ⊢
  have hflag : bytes.getD 0 0 = if compressed then 1 else 0 := by
    rw [← hbytes]
    rfl
  have hheader : ¬bytes.length < headerSize := by omega
  have hwhole : ¬bytes.length < headerSize + body.length := by omega
  unfold answer Decoder.nextMessage
  simp only [List.drop_zero, hheader, if_false, hframeLength, hwhole, hbodyBytes, hlength, hflag]
  cases compressed with
  | true =>
    have hpayload : gzip.decompress body maxMessageSize = .ok payload := hpayload
    simp [hcompression rfl, hpayload]
  | false =>
    obtain rfl : body = payload := Except.ok.inj hpayload
    simp [Nat.not_lt.mpr (hlarge rfl)]

/-- A payload with the compression of its frame, within the limits of the receiver. -/
structure Sent (gzip : Gzip) (maxMessageSize : ℕ) (compression : Compression)
    (item : Bytes × Compression) (frame : Bytes) : Prop where
  fits : item.1.length ≤ maxMessageSize
  accepted : item.2 = .gzip → compression = .gzip
  encoded : encodeWithCompression gzip item.1 item.2 = .ok frame

theorem Sent.answer_eq (hgzip : gzip.Inverts) {item : Bytes × Compression}
    (h : Sent gzip maxMessageSize compression item frame) (rest : Bytes) :
    answer gzip maxMessageSize compression (frame ++ rest) =
      .message ⟨item.1, frame.length, item.2 = .gzip⟩ frame.length := by
  obtain ⟨payload, kind⟩ := item
  obtain ⟨hfits, haccepted, hencoded⟩ := h
  cases kind with
  | identity =>
    have hencoded : encodePayload payload false = .ok frame := hencoded
    exact answer_encodePayload hencoded nofun (fun _ => hfits) rfl rest
  | gzip =>
    exact answer_encodePayload hencoded (fun _ => haccepted rfl) nofun
      (hgzip payload maxMessageSize hfits) rest

theorem decodes_frames (hgzip : gzip.Inverts) {items : List (Bytes × Compression)}
    {frames : List Bytes}
    (h : List.Forall₂ (Sent gzip maxMessageSize compression) items frames) :
    ∃ messages, Decodes (answer gzip maxMessageSize compression) frames.flatten messages (.ok []) ∧
      messages.map DecodedMessage.payload = items.map Prod.fst := by
  induction h with
  | nil => exact ⟨[], .starved answer_nil, rfl⟩
  | cons hitem _ ih =>
    obtain ⟨messages, hdecodes, hpayloads⟩ := ih
    refine ⟨_ :: messages, .message (hitem.answer_eq hgzip _) ?_, ?_⟩
    · rw [List.flatten_cons, List.drop_left]
      exact hdecodes
    · rw [List.map_cons, List.map_cons, hpayloads]

/-! ## Exactly one message -/

/-- `decodeUnary` asks twice. -/
theorem decodeUnary_eq (hfits : bytes.length ≤ maxU64) :
    decodeUnaryWithCompression gzip bytes maxMessageSize compression [] =
      match answer gzip maxMessageSize compression bytes with
      | .starved => .error .truncatedFrame
      | .failed err => .error err
      | .message message size =>
        match answer gzip maxMessageSize compression (bytes.drop size) with
        | .starved => if bytes.drop size ≠ [] then .error .truncatedFrame else .ok message.payload
        | .failed err => .error err
        | .message _ _ => .error .expectedUnaryMessage := by
  have hfeed : Decoder.feedBounded { maxMessageSize, compression } bytes maxU64 false =
      (.ok (), { maxMessageSize, compression, buffer := bytes }) := by
    unfold Decoder.feedBounded
    rw [if_neg (by simp [Decoder.bufferedBytes]; omega)]
    rfl
  simp only [decodeUnaryWithCompression, List.getD_nil, hfeed, nextMessage_eq, Decoder.available,
    List.drop_zero]
  cases answer gzip maxMessageSize compression bytes with
  | starved => rfl
  | failed => rfl
  | message message size =>
    simp only [Nat.zero_add]
    cases answer gzip maxMessageSize compression (bytes.drop size) with
    | failed => rfl
    | message => rfl
    | starved =>
      simp only [Decoder.finish, Decoder.bufferedBytes]
      by_cases hleft : bytes.drop size = []
      · have hnone : bytes.length - size = 0 := by
          rw [← List.length_drop, hleft]
          rfl
        simp [hleft, hnone, Except.map]
      · have hsome : bytes.length - size ≠ 0 := Nat.sub_ne_zero_of_lt (by simpa using hleft)
        simp [hleft, hsome, Except.map]

theorem decodeUnary_iff (hfits : bytes.length ≤ maxU64) :
    decodeUnaryWithCompression gzip bytes maxMessageSize compression [] = .ok payload ↔
      ∃ message, Decodes (answer gzip maxMessageSize compression) bytes [message] (.ok []) ∧
        message.payload = payload := by
  rw [decodeUnary_eq hfits]
  constructor
  · intro h
    split at h
    · cases h
    · cases h
    · rename_i message size hfirst
      split at h
      · split at h
        · cases h
        · rename_i hleft
          have hleft : bytes.drop size = [] := not_not.mp hleft
          refine ⟨message, .message hfirst ?_, Except.ok.inj h⟩
          rw [hleft]
          exact .starved answer_nil
      · cases h
      · cases h
  · rintro ⟨message, hdecodes, rfl⟩
    cases hdecodes with
    | message hfirst hrest =>
      rename_i size
      have hleft : bytes.drop size = [] := by
        generalize hrest' : bytes.drop size = rest at hrest
        cases hrest with
        | starved => rfl
      rw [hfirst]
      simp [hleft, answer_nil]

theorem map_bufferedBytes (result : Except FrameError Decoder) :
    result.map Decoder.bufferedBytes = (result.map Decoder.available).map List.length := by
  cases result with
  | error => rfl
  | ok decoder => exact congrArg Except.ok decoder.length_available.symm

/-- Frames of payloads within the limits decode to the payloads, in order, however they are cut into
chunks, and leave nothing behind.  For any bytes whatsoever the messages, the first error and the
number of bytes left over are the same for every cutting, and `decodeUnary` accepts the bytes
exactly if they are one message, with no error and nothing left over. -/
theorem frame_codec (gzip : Gzip) (maxMessageSize : ℕ) (compression : Compression) :
    (gzip.Inverts → ∀ items frames, List.Forall₂ (Sent gzip maxMessageSize compression)
      items frames →
      ∀ chunks : List Bytes, chunks.flatten = frames.flatten → frames.flatten.length ≤ maxU64 →
        ((fresh maxMessageSize compression).session gzip chunks).1.map DecodedMessage.payload =
            items.map Prod.fst ∧
          ∃ decoder, ((fresh maxMessageSize compression).session gzip chunks).2 = .ok decoder ∧
            decoder.finish = .ok ()) ∧
    ∀ bytes : Bytes, bytes.length ≤ maxU64 → ∀ chunks chunks' : List Bytes,
      chunks.flatten = bytes → chunks'.flatten = bytes →
        (((fresh maxMessageSize compression).session gzip chunks).1 =
            ((fresh maxMessageSize compression).session gzip chunks').1 ∧
          ((fresh maxMessageSize compression).session gzip chunks).2.map Decoder.bufferedBytes =
            ((fresh maxMessageSize compression).session gzip chunks').2.map Decoder.bufferedBytes) ∧
        ∀ payload, decodeUnaryWithCompression gzip bytes maxMessageSize compression [] =
          .ok payload ↔
          ∃ message, ((fresh maxMessageSize compression).session gzip chunks).1 = [message] ∧
            message.payload = payload ∧
            ((fresh maxMessageSize compression).session gzip chunks).2.map Decoder.bufferedBytes =
              .ok 0 := by
  refine ⟨?_, ?_⟩
  · intro hgzip items frames hsent chunks hcut hfits
    obtain ⟨messages, hframes, hpayloads⟩ := decodes_frames hgzip hsent
    have hsession := session_decodes gzip maxMessageSize compression (hcut ▸ hfits)
    rw [hcut] at hsession
    obtain ⟨htaken, hleft⟩ := hsession.unique hframes
    refine ⟨by rw [htaken, hpayloads], ?_⟩
    cases hresult : ((fresh maxMessageSize compression).session gzip chunks).2 with
    | error =>
      rw [hresult] at hleft
      cases hleft
    | ok decoder =>
      rw [hresult] at hleft
      have hnone : decoder.available = [] := Except.ok.inj hleft
      have hbuffered : decoder.bufferedBytes = 0 := by
        rw [← decoder.length_available, hnone]
        rfl
      exact ⟨decoder, rfl, by simp [Decoder.finish, hbuffered]⟩
  · rintro bytes hfits chunks chunks' hcut hcut'
    have hsession := session_decodes gzip maxMessageSize compression (hcut ▸ hfits)
    have hsession' := session_decodes gzip maxMessageSize compression (hcut' ▸ hfits)
    rw [hcut] at hsession
    rw [hcut'] at hsession'
    obtain ⟨htaken, hleft⟩ := hsession.unique hsession'
    refine ⟨⟨htaken, by rw [map_bufferedBytes, hleft, ← map_bufferedBytes]⟩, fun payload => ?_⟩
    rw [decodeUnary_iff hfits]
    constructor
    · rintro ⟨message, hdecodes, hpayload⟩
      obtain ⟨htaken, hleft⟩ := hsession.unique hdecodes
      exact ⟨message, htaken, hpayload, by rw [map_bufferedBytes, hleft]; rfl⟩
    · rintro ⟨message, htaken, hpayload, hleft⟩
      refine ⟨message, ?_, hpayload⟩
      have hnone : ((fresh maxMessageSize compression).session gzip chunks).2.map
          Decoder.available =
          .ok [] := by
        rw [map_bufferedBytes] at hleft
        cases hresult : ((fresh maxMessageSize compression).session gzip chunks).2.map
            Decoder.available with
        | error err =>
          rw [hresult] at hleft
          cases hleft
        | ok rest =>
          rw [hresult] at hleft
          rw [List.length_eq_zero_iff.mp (Except.ok.inj hleft)]
      rwa [htaken, hnone] at hsession

def crc32 (bytes : Bytes) : ℕ :=
  bytes.foldl (fun crc byte => Nat.repeat
    (fun crc => if crc % 2 = 1 then crc / 2 ^^^ 0xEDB88320 else crc / 2) 8 (crc ^^^ byte.toNat))
    0xFFFFFFFF ^^^ 0xFFFFFFFF

def gzipHeader : Bytes := [31, 139, 8, 0, 0, 0, 0, 0, 0, 255]

def gzipFooter (payload : Bytes) : Bytes :=
  (lengthBytes (crc32 payload)).reverse ++ (lengthBytes payload.length).reverse

/-- A stored block for each byte, and an empty last block. -/
def deflate (payload : Bytes) : Bytes :=
  payload.flatMap (fun byte => [0, 1, 0, 254, 255, byte]) ++ [1, 0, 0, 255, 255]

def inflate : Bytes → Option (Bytes × Bytes)
  | 0 :: 1 :: 0 :: 254 :: 255 :: byte :: rest =>
    (inflate rest).map fun (payload, rest) => (byte :: payload, rest)
  | 1 :: 0 :: 0 :: 255 :: 255 :: rest => some ([], rest)
  | _ => none

/-- Gzip without compression, with the checks of the footer that `decompressGzip` makes. -/
def stored : Gzip where
  compress payload := gzipHeader ++ (deflate payload ++ gzipFooter payload)
  decompress body maxMessageSize :=
    match inflate (body.drop 10) with
    | none => .error .malformedCompressedMessage
    | some (payload, footer) =>
      if maxMessageSize < payload.length then .error .messageTooLarge
      else if body.take 10 ≠ gzipHeader ∨ footer ≠ gzipFooter payload then
        .error .malformedCompressedMessage
      else .ok payload

theorem inflate_deflate (payload rest : Bytes) :
    inflate (deflate payload ++ rest) = some (payload, rest) := by
  induction payload with
  | nil => rfl
  | cons byte payload ih =>
    show (inflate (deflate payload ++ rest)).map _ = _
    rw [ih]
    rfl

theorem stored_inverts : stored.Inverts := by
  intro payload maxMessageSize hle
  have hbody : inflate ((stored.compress payload).drop 10) = some (payload, gzipFooter payload) :=
    inflate_deflate payload _
  have hheader : (stored.compress payload).take 10 = gzipHeader := rfl
  simp only [stored] at hbody hheader ⊢
  simp [hbody, hheader, Nat.not_lt.2 hle]

theorem frame_codec_chunks :
    ((fresh 4 .gzip).session stored [[0, 0, 0], [0, 2, 7, 8, 1, 0], [],
      [0, 0, 29, 31, 139, 8, 0, 0, 0, 0, 0, 0, 255, 0, 1, 0, 254, 255, 9, 1, 0, 0, 255],
      [255, 41, 87, 222, 171, 1, 0, 0, 0]]).1.map DecodedMessage.payload = [[7, 8], [9]] := by
  have hsent : List.Forall₂ (Sent stored 4 .gzip) [([7, 8], .identity), ([9], .gzip)]
      [[0, 0, 0, 0, 2, 7, 8], 1 :: 0 :: 0 :: 0 :: 29 :: stored.compress [9]] :=
    .cons ⟨by decide, nofun, rfl⟩ (.cons ⟨by decide, fun _ => rfl, rfl⟩ .nil)
  exact ((frame_codec stored 4 .gzip).1 stored_inverts _ _ hsent _ rfl (by decide)).1

end GrpcLite.Frame
