import GrpcLite.Client.Responses

/-!
# The status of a unary call and of a stream

The same response and the same close code, seen by a unary call and by a stream.  A unary call fails
at the first block with invalid metadata and looks at the body only if the status is OK; a stream
looks at its metadata last and decodes the body as it comes.
-/

namespace GrpcLite.Client

/-! ## What decides the status -/

/-- A first block with a status that does not end the stream. -/
def Incoming.isPremature : Incoming → Bool
  | .block first fields endStream => first && carriesStatus fields && !endStream
  | .data _ _ => false

def Incoming.isMalformed : Incoming → Bool
  | .block _ fields _ => fields.any Field.isMalformed
  | .data _ _ => false

def Incoming.bytes : Incoming → Bytes
  | .block _ _ _ => []
  | .data bytes _ => bytes

/-- What is left in the decoder of a stream: the DATA frames are decoded as they come, each with the
encoding that the blocks before it announce. -/
def decodeBody (gzip : Gzip) (compression : Compression) (decoder : Frame.Decoder) :
    List Incoming → Except FrameError Frame.Decoder
  | [] => .ok decoder
  | .block _ fields _ :: rest => decodeBody gzip (blockEncoding compression fields) decoder rest
  | .data bytes _ :: rest =>
    let fed := { decoder with compression := compression }.feed bytes
    match fed.drain gzip (fed.bufferedBytes + 1) with
    | .error err => .error err
    | .ok decoder => decodeBody gzip compression decoder rest

/-- The close code or the protocol fields say that the call failed without a status of the peer. -/
def Reading.isSettled (r : Reading) (errorCode : ℕ) : Bool :=
  errorCode ≠ noError ∨ r.verdict.toOption = none

def Reading.code (r : Reading) (errorCode : ℕ) : Code :=
  if errorCode ≠ noError then (streamErrorStatus errorCode).code
  else match r.verdict with
    | .error status => status.code
    | .ok grpcStatus => .fromInt grpcStatus

namespace Reading

variable {limit : ℕ} {r r' : Reading}

theorem block_close {first : Bool} {fields : List Field} (endStream : Bool)
    (h : r.block limit first fields = some r') :
    r'.premature endStream = (Incoming.block first fields endStream).isPremature ∧
      r'.responseMetadataInvalid = (r.responseMetadataInvalid || fields.any Field.isMalformed) ∧
      (r'.close endStream).responseMetadataInvalid = r'.responseMetadataInvalid ∧
      (r'.close endStream).responseCompression = blockEncoding r.responseCompression fields := by
  have hadds := fields_adds h
  obtain ⟨_, hstatus, houter⟩ := block_adds h
  have hkind : r'.blockKind = headerKind first := congrArg Outer.blockKind houter
  refine ⟨?_, hadds.malformed, ?_, ?_⟩
  · simp only [premature, Incoming.isPremature, hkind, hstatus]
    cases first <;> simp [headerKind]
  · unfold close
    split <;> rfl
  · rw [← show r'.responseCompression = blockEncoding r.responseCompression fields
      from hadds.encoding]
    unfold close
    split <;> rfl

end Reading

namespace Collector

variable {limit maxResponseSize : ℕ} {c c' : Collector}

theorem receive_append (c : Collector) (first second : List Part) :
    c.receive limit maxResponseSize (first ++ second) =
      (c.receive limit maxResponseSize first).bind (·.receive limit maxResponseSize second) :=
  List.foldlM_append ..

theorem receive_block (c : Collector) (first : Bool) (block : List Field) (endStream : Bool) :
    c.receive limit maxResponseSize (Incoming.block first block endStream).parts =
      (c.reading.block limit first block).map fun r => { c with reading := r }.close endStream :=
  foldlM_block Collector.reading (fun c r => { c with reading := r })
    (fun _ _ => rfl) (fun _ _ _ => rfl) (fun _ => rfl) (fun _ _ => rfl) (fun _ _ => rfl)
    (fun _ _ => rfl) c first block endStream

theorem receive_data (c : Collector) (bytes : Bytes) (endStream : Bool) :
    c.receive limit maxResponseSize (Incoming.data bytes endStream).parts =
      some (c.data maxResponseSize bytes) := by
  cases endStream <;> rfl

/-- A call that has failed exactly if a status came too early or the metadata are malformed. -/
structure Judges (early malformed : Bool) (c : Collector) : Prop where
  outcome : c.outcome.isSome = (early || malformed)
  code : ∀ status, c.outcome = some status → status.code = .internal
  invalid : c.reading.responseMetadataInvalid = malformed

variable {early malformed : Bool}

theorem Judges.block {first endStream : Bool} {fields : List Field} (h : c.Judges early malformed)
    (hreceive : c.receive limit maxResponseSize (Incoming.block first fields endStream).parts =
      some c') :
    c'.Judges (early || (Incoming.block first fields endStream).isPremature)
      (malformed || (Incoming.block first fields endStream).isMalformed) := by
  rw [receive_block] at hreceive
  obtain ⟨r, hblock, rfl⟩ := Option.map_eq_some_iff.mp hreceive
  obtain ⟨hpremature, hinvalid, hkept, -⟩ := Reading.block_close endStream hblock
  rw [h.invalid] at hinvalid
  have hfault : ({ c with reading := r } : Collector).fault endStream =
      if (Incoming.block first fields endStream).isPremature ∨
        (malformed || fields.any Field.isMalformed) then
      some (Operation.blockFailure (!(Incoming.block first fields endStream).isPremature))
      else none := by
    unfold fault
    rw [hpremature, hinvalid]
  refine ⟨?_, ?_, hkept.trans hinvalid⟩
  · show (c.outcome.or (fault _ endStream)).isSome = _
    rw [hfault, Option.isSome_or, h.outcome]
    generalize (Incoming.block first fields endStream).isPremature = premature
    show _ = (early || premature || (malformed || fields.any Field.isMalformed))
    cases early <;> cases malformed <;> cases premature <;>
      cases fields.any Field.isMalformed <;> rfl
  · intro status hstatus
    have hor : c.outcome.or (({ c with reading := r } : Collector).fault endStream) = some status :=
      hstatus
    rcases Option.or_eq_some_iff.mp hor with hfirst | ⟨-, hsecond⟩
    · exact h.code status hfirst
    · rw [hfault] at hsecond
      split at hsecond
      · cases hsecond
        rfl
      · cases hsecond

theorem receive_incoming {incoming : List Incoming} (h : c.Judges early malformed)
    (hfits : c.tooLarge = false) (hsize : c.body.length + (incoming.flatMap Incoming.bytes).length ≤
      Operation.wireMessageLimit maxResponseSize)
    (hreceive : c.receive limit maxResponseSize (incoming.flatMap Incoming.parts) = some c') :
    c'.Judges (early || incoming.any Incoming.isPremature)
        (malformed || incoming.any Incoming.isMalformed) ∧
      c'.tooLarge = false ∧ c'.body = c.body ++ incoming.flatMap Incoming.bytes := by
  induction incoming generalizing c early malformed with
  | nil =>
    cases hreceive
    simpa using ⟨h, hfits⟩
  | cons item rest ih =>
    rw [List.flatMap_cons, receive_append] at hreceive
    obtain ⟨c₁, hitem, hrest⟩ := Option.bind_eq_some_iff.mp hreceive
    rw [List.flatMap_cons, List.length_append] at hsize
    rw [List.any_cons, List.any_cons, List.flatMap_cons, ← Bool.or_assoc, ← Bool.or_assoc,
      ← List.append_assoc]
    cases item with
    | block first fields endStream =>
      have hjudges := h.block hitem
      rw [receive_block] at hitem
      obtain ⟨r, -, rfl⟩ := Option.map_eq_some_iff.mp hitem
      rw [show (Incoming.block first fields endStream).bytes = [] from rfl, List.append_nil]
      have hsize' : c.body.length + (rest.flatMap Incoming.bytes).length ≤
          Operation.wireMessageLimit maxResponseSize := by
        simpa [Incoming.bytes] using hsize
      exact ih (c := { c with reading := r }.close endStream) hjudges hfits hsize' hrest
    | data bytes =>
      rw [receive_data] at hitem
      have hsize' : c.body.length + bytes.length + (rest.flatMap Incoming.bytes).length ≤
          Operation.wireMessageLimit maxResponseSize := by
        rw [Nat.add_assoc]
        exact hsize
      have hroom : ¬Operation.wireMessageLimit maxResponseSize - c.body.length < bytes.length := by
        omega
      unfold Collector.data at hitem
      rw [if_neg hroom] at hitem
      cases hitem
      simp only [Incoming.isPremature, Incoming.isMalformed, Bool.or_false]
      exact ih (c := { c with body := c.body ++ bytes }) { h with } hfits
        (by simpa using hsize') hrest

end Collector

namespace Receiver

variable {limit : ℕ} {gzip : Gzip} {v v' : Receiver}

theorem receive_data (v : Receiver) (bytes : Bytes) (endStream : Bool) :
    v.receive limit gzip (Incoming.data bytes endStream).parts = some (v.data gzip bytes) := by
  cases endStream <;> rfl

def Fails (v : Receiver) : Prop :=
  ∃ status, v.forced = some status ∧ (status.code = .internal ∨ status.code = .resourceExhausted)

theorem decodeFailure_code (err : StreamError) :
    (decodeFailure err).code = .internal ∨ (decodeFailure err).code = .resourceExhausted := by
  unfold decodeFailure
  split
  · exact .inr rfl
  · exact .inr rfl
  · exact .inl rfl

variable {incoming : List Incoming}

theorem Fails.receive (h : v.Fails)
    (hreceive : v.receive limit gzip (incoming.flatMap Incoming.parts) = some v') : v'.Fails := by
  induction incoming generalizing v with
  | nil =>
    cases hreceive
    exact h
  | cons item rest ih =>
    rw [List.flatMap_cons, receive_append] at hreceive
    obtain ⟨v₁, hitem, hrest⟩ := Option.bind_eq_some_iff.mp hreceive
    refine ih ?_ hrest
    obtain ⟨status, hforced, hcode⟩ := h
    cases item with
    | block =>
      rw [receive_block] at hitem
      obtain ⟨r, -, rfl⟩ := Option.map_eq_some_iff.mp hitem
      refine ⟨status, ?_, hcode⟩
      unfold close force
      split
      · simp [hforced]
      · split
        · exact hforced
        · exact hforced
    | data =>
      rw [receive_data] at hitem
      cases hitem
      unfold Receiver.data
      rw [if_pos (by rw [hforced]; rfl)]
      exact ⟨status, hforced, hcode⟩

/-- What a response leaves in a stream: a status that came too early, or what the decoder makes of
the body. -/
theorem receive_incoming (h : v.forced = none)
    (hreceive : v.receive limit gzip (incoming.flatMap Incoming.parts) = some v') :
    (incoming.any Incoming.isPremature → v'.Fails) ∧
      (incoming.any Incoming.isPremature = false →
        match decodeBody gzip v.reading.responseCompression v.decoder incoming with
        | .error _ => v'.Fails
        | .ok decoder => v'.forced = none ∧ v'.decoder = decoder) := by
  induction incoming generalizing v with
  | nil =>
    cases hreceive
    exact ⟨nofun, fun _ => ⟨h, rfl⟩⟩
  | cons item rest ih =>
    rw [List.flatMap_cons, receive_append] at hreceive
    obtain ⟨v₁, hitem, hrest⟩ := Option.bind_eq_some_iff.mp hreceive
    cases item with
    | block first fields endStream =>
      rw [receive_block] at hitem
      obtain ⟨r, hblock, rfl⟩ := Option.map_eq_some_iff.mp hitem
      obtain ⟨hpremature, -, -, hencoding⟩ := Reading.block_close endStream hblock
      rw [List.any_cons]
      cases hearly : (Incoming.block first fields endStream).isPremature with
      | true =>
        refine ⟨fun _ => Fails.receive ?_ hrest, nofun⟩
        unfold close force
        rw [if_pos (hpremature.trans hearly), h]
        exact ⟨_, rfl, .inl rfl⟩
      | false =>
        have hclosed : ({ v with reading := r }.close endStream : Receiver).forced = none ∧
            ({ v with reading := r }.close endStream : Receiver).reading = r.close endStream ∧
            ({ v with reading := r }.close endStream : Receiver).decoder = v.decoder := by
          unfold close
          rw [if_neg (by rw [hpremature, hearly]; nofun)]
          split
          · exact ⟨h, rfl, rfl⟩
          · exact ⟨h, rfl, rfl⟩
        have hlater := ih hclosed.1 hrest
        rw [hclosed.2.1, hclosed.2.2, hencoding] at hlater
        exact hlater
    | data bytes endStream =>
      rw [receive_data] at hitem
      cases hitem
      unfold Receiver.data at hrest
      rw [if_neg (by rw [h]; nofun)] at hrest
      have hdata : decodeBody gzip v.reading.responseCompression v.decoder
          (.data bytes endStream :: rest) =
          match (v.current.feed bytes).drain gzip ((v.current.feed bytes).bufferedBytes + 1) with
          | .error err => .error err
          | .ok decoder => decodeBody gzip v.reading.responseCompression decoder rest := rfl
      rw [List.any_cons, hdata]
      dsimp only at hrest
      cases hdrain : (v.current.feed bytes).drain gzip
        ((v.current.feed bytes).bufferedBytes + 1) with
      | error err =>
        rw [hdrain] at hrest
        have hfails : (v.force (decodeFailure (.frame err))).Fails := by
          refine ⟨decodeFailure (.frame err), ?_, decodeFailure_code _⟩
          unfold force
          rw [h]
          rfl
        exact ⟨fun _ => hfails.receive hrest, fun _ => hfails.receive hrest⟩
      | ok decoder =>
        rw [hdrain] at hrest
        exact ih (v := { v with decoder := decoder }) h hrest

end Receiver

/-! ## The two statuses -/

variable {grpcStatus errorCode : ℕ}

theorem Reading.verdict_ok {r : Reading} (h : r.verdict = .ok grpcStatus) :
    r.grpcStatus = some grpcStatus := by
  unfold verdict at h
  repeat'
    split at h
    · cases h
  rename_i hstatus _
  cases h
  exact hstatus

variable {gzip : Gzip} {maxResponseSize : ℕ} {c : Collector}

theorem Collector.statusCompletion_code
    (hbody : grpcStatus = 0 → ∃ payload, Frame.decodeUnaryWithCompression gzip c.body
      maxResponseSize c.reading.responseCompression [false, false, false] = .ok payload) :
    (c.statusCompletion gzip maxResponseSize grpcStatus).status.code = .fromInt grpcStatus := by
  unfold statusCompletion
  split
  · rfl
  · rename_i hok
    have hzero : grpcStatus = 0 := Code.fromInt_eq_ok.mp (not_not.mp hok)
    obtain ⟨payload, hpayload⟩ := hbody hzero
    rw [hpayload, hzero]
    rfl

theorem Collector.completion_code {early malformed : Bool} (h : c.Judges early malformed)
    (hfits : c.tooLarge = false)
    (hbody : c.reading.grpcStatus = some 0 → ∃ payload, Frame.decodeUnaryWithCompression gzip c.body
      maxResponseSize c.reading.responseCompression [false, false, false] = .ok payload) :
    (c.completion gzip maxResponseSize errorCode).status.code =
      if early || malformed then .internal else c.reading.code errorCode := by
  unfold completion
  cases houtcome : c.outcome with
  | some status =>
    have hfailed : (early || malformed) = true := by rw [← h.outcome, houtcome]; rfl
    rw [if_pos hfailed]
    exact h.code status houtcome
  | none =>
    have hgoes : ¬(early || malformed) = true := by rw [← h.outcome, houtcome]; nofun
    rw [if_neg hgoes]
    unfold Reading.code
    dsimp only
    by_cases herror : errorCode ≠ noError
    · rw [if_pos herror, if_pos herror]
      rfl
    · rw [if_neg herror, if_neg herror]
      cases hverdict : c.reading.verdict with
      | error => rfl
      | ok =>
        simp only [hfits, Bool.false_eq_true, if_false]
        exact statusCompletion_code fun hok => hbody (hok ▸ Reading.verdict_ok hverdict)

theorem Receiver.outcome_code (v : Receiver) (errorCode : ℕ) :
    (v.outcome errorCode).code = match v.forced with
      | some status => status.code
      | none =>
        if ¬v.reading.isSettled errorCode ∧
          (v.reading.responseMetadataInvalid ∨ v.decoder.bufferedBytes ≠ 0) then .internal
        else v.reading.code errorCode := by
  unfold outcome Reading.isSettled Reading.code
  cases v.forced with
  | some => rfl
  | none =>
    dsimp only
    by_cases herror : errorCode = noError
    · cases hverdict : v.reading.verdict with
      | error => simp [herror, Except.toOption]
      | ok =>
        unfold Frame.Decoder.finish
        by_cases hinvalid : v.reading.responseMetadataInvalid
        · simp [herror, hinvalid, Except.toOption]
          rfl
        · by_cases hempty : v.decoder.bufferedBytes = 0
          · simp [herror, hinvalid, hempty, Except.toOption]
          · simp [herror, hinvalid, hempty, Except.toOption]
            rfl
    · simp [herror]

/-- A stream fails with INTERNAL: its decoder refuses the body, or nothing else has failed and the
metadata are malformed or the body is cut off. -/
def streamFails (gzip : Gzip) (maxMessageSize : ℕ) (incoming : List Incoming) (settled : Bool) :
    Bool :=
  match decodeBody gzip .identity { maxMessageSize := maxMessageSize, compression := .identity }
    incoming with
  | .error _ => true
  | .ok decoder => !settled && (incoming.any Incoming.isMalformed || decoder.bufferedBytes != 0)

/-- The responses and close codes for which the two kinds of call agree: a status comes too early,
the close code and the protocol fields say INTERNAL themselves, or the metadata are malformed
exactly if a stream fails. -/
def Agreeable (gzip : Gzip) (maxMessageSize : ℕ) (incoming : List Incoming) (r : Reading)
    (errorCode : ℕ) : Prop :=
  incoming.any Incoming.isPremature ∨ r.code errorCode = .internal ∨
    incoming.any Incoming.isMalformed =
      streamFails gzip maxMessageSize incoming (r.isSettled errorCode)

instance (gzip : Gzip) (maxMessageSize : ℕ) (incoming : List Incoming) (r : Reading)
    (errorCode : ℕ) : Decidable (Agreeable gzip maxMessageSize incoming r errorCode) :=
  inferInstanceAs (Decidable (_ ∨ _))

theorem codes_agree {gzip' : Gzip} {limit maxMessageSize : ℕ} {incoming : List Incoming}
    {v : Receiver}
    (hc : Collector.receive limit maxResponseSize {} (incoming.flatMap Incoming.parts) = some c)
    (hv : (Receiver.fresh maxMessageSize).receive limit gzip' (incoming.flatMap Incoming.parts) =
      some v) (hread : c.reading = v.reading)
    (hsize : (incoming.flatMap Incoming.bytes).length ≤ Operation.wireMessageLimit maxResponseSize)
    (hbody : v.reading.grpcStatus = some 0 → ∃ payload, Frame.decodeUnaryWithCompression gzip
      (incoming.flatMap Incoming.bytes) maxResponseSize v.reading.responseCompression
      [false, false, false] = .ok payload)
    (hquota : ∀ status, v.forced = some status → status.code ≠ .resourceExhausted) :
    (c.completion gzip maxResponseSize errorCode).status.code = (v.outcome errorCode).code ↔
      Agreeable gzip' maxMessageSize incoming v.reading errorCode := by
  have hfresh : ({} : Collector).Judges false false := ⟨rfl, nofun, rfl⟩
  obtain ⟨hjudges, hroom, hbytes⟩ := Collector.receive_incoming hfresh rfl (by simpa using hsize) hc
  rw [Bool.false_or, Bool.false_or] at hjudges
  have hbody' : c.reading.grpcStatus = some 0 → ∃ payload, Frame.decodeUnaryWithCompression gzip
      c.body maxResponseSize c.reading.responseCompression [false, false, false] = .ok payload := by
    rw [hread, hbytes]
    exact hbody
  rw [Collector.completion_code hjudges hroom hbody', hread]
  have hstatus := v.outcome_code errorCode
  rw [← hread, hjudges.invalid, hread] at hstatus
  have hfails : v.Fails → (v.outcome errorCode).code = .internal := by
    rintro ⟨status, hforced, hinternal | hexhausted⟩
    · rw [Receiver.outcome_code, hforced]
      exact hinternal
    · exact absurd hexhausted (hquota status hforced)
  obtain ⟨hearly, hlate⟩ := Receiver.receive_incoming rfl hv
  unfold Agreeable streamFails
  cases hany : incoming.any Incoming.isPremature with
  | true => simp [hfails (hearly hany)]
  | false =>
    have hdecoded : match decodeBody gzip' .identity
        { maxMessageSize := maxMessageSize, compression := .identity } incoming with
      | .error _ => v.Fails
      | .ok decoder => v.forced = none ∧ v.decoder = decoder := hlate hany
    cases hdecode : decodeBody gzip' .identity
        { maxMessageSize := maxMessageSize, compression := .identity } incoming with
    | error err =>
      rw [hdecode] at hdecoded
      rw [hfails hdecoded]
      cases incoming.any Incoming.isMalformed <;> simp
    | ok decoder =>
      rw [hdecode] at hdecoded
      rw [hdecoded.1, hdecoded.2] at hstatus
      rw [hstatus]
      cases incoming.any Incoming.isMalformed with
      | true => cases v.reading.isSettled errorCode <;> simp [eq_comm]
      | false =>
        cases v.reading.isSettled errorCode with
        | true => simp
        | false => by_cases hempty : decoder.bufferedBytes = 0 <;> simp [hempty]

def ReportsCode (u : OperationWorld) (w : World) (code : Code) : Prop :=
  u.log.completions.map (·.status.code) = [code] ∧
    (w.log.marks.filterMap Mark.report).map (·.1.code) = [code]

/-- A unary call and a stream that get the same response report the same code exactly in these
cases.  The body is one message within the limits if the status is OK, and nothing but the response
ends the calls. -/
theorem unary_and_streaming_status_agree {u : OperationWorld} {w : World} {unary : UnaryCourse}
    {course : Course} {r : Reading} (incoming : List Incoming) (hu : Operation.IsReady u)
    (hdue : hasExpired u.operation.deadline unary.now = false)
    (hunary : unary.response = incoming.flatMap Incoming.parts) (hw : w.IsReady)
    (hintime : course.InTime w.stream.deadline)
    (hstream : course.response = incoming.flatMap Incoming.parts)
    (hclose : unary.errorCode = course.errorCode)
    (hlimit : u.maxResponseHeaderListSize = w.maxResponseHeaderListSize)
    (hread : Reading.receive w.maxResponseHeaderListSize {}
    (incoming.flatMap Incoming.parts) = some r)
    (hsize : (incoming.flatMap Incoming.bytes).length ≤
      Operation.wireMessageLimit u.operation.maxResponseSize)
    (hbody : r.grpcStatus = some 0 → ∃ payload, Frame.decodeUnaryWithCompression u.gzip
      (incoming.flatMap Incoming.bytes) u.operation.maxResponseSize r.responseCompression
      [false, false, false] = .ok payload)
    (hkept : ¬(Run.final step w course.events).Aborted)
    (hconsumed : (Run.final step w course.events).Consumed) :
    (∃ code, ReportsCode (Run.final Operation.step u unary.events) (Run.final step w course.events)
      code) ↔ Agreeable w.gzip w.stream.limits.maxMessageSize incoming r course.errorCode := by
  obtain ⟨c, hc, rfl⟩ := Collector.exists_receive u.operation.maxResponseSize hread
  have hsome : (Reading.receive w.maxResponseHeaderListSize {}
      (incoming.flatMap Incoming.parts)).isSome := by rw [hread]; rfl
  obtain ⟨v, hv, hvread⟩ := Receiver.exists_receive hsome w.gzip w.stream.limits.maxMessageSize
  have hsame : c.reading = v.reading := Option.some.inj (hread.symm.trans hvread)
  have hcompletions := Operation.run_course hu hdue (hlimit ▸ hunary ▸ hc)
  have hresponse := hstream ▸ hv
  have hreport := ((run_course hw hintime hresponse).reported hkept hconsumed).report
  have hquota : ∀ status, v.forced = some status → status.code ≠ .resourceExhausted :=
    fun status hforced hexhausted =>
      hkept (run_course_quota hw hintime hresponse hforced hexhausted)
  rw [hsame] at hbody ⊢
  rw [← codes_agree hc hv hsame hsize hbody hquota, ← hclose]
  unfold ReportsCode
  rw [hcompletions, hreport, hclose]
  simp [eq_comm]

theorem unary_and_streaming_status_agree_plain :
    ∃ code, ReportsCode
      (Run.final Operation.step sampleOperation
        (UnaryCourse.of plainResponse.incoming noError).events)
      (Run.final step sampleStream (Course.of plainResponse.incoming noError).events) code :=
  (unary_and_streaming_status_agree plainResponse.incoming
    (r := (Reading.receive sampleStream.maxResponseHeaderListSize {}
      plainResponse.parts).getD {}) sampleOperation_ready rfl (by decide +kernel) sampleStream_ready
    ⟨rfl, fun _ => rfl⟩ (by decide +kernel) rfl rfl (by decide +kernel) (by decide +kernel)
    (fun _ => ⟨[7], by decide +kernel⟩) (by decide +kernel) (by decide +kernel)).mpr
    (by decide +kernel)

/-- A gateway that answers 503 with a field that is not base64. -/
def gatewayResponse : List Incoming :=
  [.block true [headerField ":status" "503", headerField "trace-bin" "!"] true]

/-- An answer that breaks off in its message and ends with NOT_FOUND. -/
def brokenResponse : List Incoming :=
  [.block true [headerField ":status" "200", headerField "content-type" "application/grpc"] false,
    .data [0, 0, 0] false, .block false [headerField "grpc-status" "5"] true]

/-- The unary call reports INTERNAL and the stream UNAVAILABLE; the unary call reports NOT_FOUND and
the stream INTERNAL. -/
theorem unary_and_streaming_status_differ :
    ((Run.final Operation.step sampleOperation
        (UnaryCourse.of gatewayResponse noError).events).log.completions.map (·.status.code) =
        [.internal] ∧
      ((Run.final step sampleStream (Course.of gatewayResponse noError).events).log.marks.filterMap
        Mark.report).map (·.1.code) = [.unavailable]) ∧
    (Run.final Operation.step sampleOperation
        (UnaryCourse.of brokenResponse noError).events).log.completions.map (·.status.code) =
        [.notFound] ∧
      ((Run.final step sampleStream (Course.of brokenResponse noError).events).log.marks.filterMap
        Mark.report).map (·.1.code) = [.internal] := by
  decide +kernel

end GrpcLite.Client
