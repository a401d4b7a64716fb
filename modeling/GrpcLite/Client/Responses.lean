import GrpcLite.Client.StreamRuns

/-!
# The same response for a unary call and for a stream

Both kinds of call read the header blocks of a response in the same way and decide at other moments.
The initial metadata are those of the first block, whatever its `:status` says.
-/

namespace GrpcLite.Client

/-! ## Reading a list of parts -/

namespace Reading

def part (limit : ℕ) (r : Reading) : Part → Option Reading
  | .begin first => some (r.start (headerKind first))
  | .field f => r.field limit f
  | .frame endStream => if r.blockKind = .none then none else some (r.close endStream)
  | .data _ | .last => some r

/-- `none` if the fields exceed the limit. -/
def receive (limit : ℕ) (r : Reading) (parts : List Part) : Option Reading :=
  parts.foldlM (part limit) r

end Reading

theorem foldlM_map {σ τ ι : Type} {step : σ → ι → Option σ} {step' : τ → ι → Option τ} {π : σ → τ}
    (h : ∀ s i, (step s i).map π = step' (π s) i) (s : σ) (items : List ι) :
    (items.foldlM step s).map π = items.foldlM step' (π s) := by
  induction items generalizing s with
  | nil => rfl
  | cons item rest ih =>
    rw [List.foldlM_cons, List.foldlM_cons, ← h]
    cases step s item with
    | none => rfl
    | some next => exact ih next

theorem Collector.receive_reading (limit maxResponseSize : ℕ) (c : Collector) (parts : List Part) :
    (c.receive limit maxResponseSize parts).map reading = c.reading.receive limit
      parts := by
  refine foldlM_map (fun c piece => ?_) c parts
  cases piece with
  | begin => rfl
  | field f =>
    unfold part Reading.part
    dsimp only
    cases c.reading.field limit f <;> rfl
  | frame =>
    unfold part Reading.part
    dsimp only
    split <;> rfl
  | data =>
    unfold part data Reading.part
    dsimp only
    split <;> rfl
  | last => rfl

theorem Receiver.receive_reading (limit : ℕ) (gzip : Gzip) (v : Receiver) (parts : List Part) :
    (v.receive limit gzip parts).map reading = v.reading.receive limit parts := by
  refine foldlM_map (fun v piece => ?_) v parts
  cases piece with
  | begin => rfl
  | field f =>
    unfold part Reading.part
    dsimp only
    cases v.reading.field limit f <;> rfl
  | frame =>
    unfold part Reading.part close
    dsimp only
    split
    · rfl
    split
    · rfl
    split <;> rfl
  | data =>
    unfold part data Reading.part
    dsimp only
    split
    · rfl
    split <;> rfl
  | last => rfl

/-! ## Header blocks -/

def Field.entries : Field → List Entry
  | .valid name value =>
    if isResponseMetadata name then (Metadata.received name value).toOption.getD [] else []
  | .invalid _ _ => []

def Field.isStatus : Field → Bool
  | .valid name _ => name == ascii "grpc-status"
  | .invalid _ _ => false

/-- Whether a field makes the metadata of the response invalid. -/
def Field.isMalformed : Field → Bool
  | .valid name value =>
    if isResponseMetadata name then (Metadata.received name value).toOption.isNone
    else isMalformedResponseMetadataName name
  | .invalid _ _ => false

def Field.encoding (compression : Compression) : Field → Compression
  | .valid name value =>
    if name = ascii "grpc-encoding" then (Compression.parse value).getD compression else compression
  | .invalid _ _ => compression

def blockEntries (fields : List Field) : List Entry := fields.flatMap Field.entries

/-- Whether a header block carries `grpc-status`. -/
def carriesStatus (fields : List Field) : Bool := fields.any Field.isStatus

def blockEncoding (compression : Compression) (fields : List Field) : Compression :=
  fields.foldl Field.encoding compression

theorem chargeRetained_error (nameLength valueLength : ℕ) (cause : Base64.DecodeError) :
    chargeRetained nameLength valueLength ≠ .error (.base64 cause) := by
  unfold chargeRetained
  split
  · nofun
  · split <;> nofun

variable {name : Bytes} {w : World} {response : Response}

theorem retainedBinarySize_base64 {cause : Base64.DecodeError} :
    ∀ {pieces : List Bytes} {total : ℕ},
      retainedBinarySize name pieces total = .error (.base64 cause) →
        ∃ err, Metadata.decodedPieces pieces = .error err
  | [], _, h => nomatch h
  | encoded :: rest, total, h => by
    cases hothers : Metadata.decodedPieces rest with
    | error err =>
      unfold Metadata.decodedPieces
      cases Metadata.decodedPiece encoded with
      | error other => exact ⟨other, rfl⟩
      | ok => exact ⟨err, by rw [hothers]; rfl⟩
    | ok =>
      simp only [retainedBinarySize, Metadata.decodedPieces, Metadata.decodedPiece] at h ⊢
      split
      · exact ⟨_, rfl⟩
      · rename_i size hsize
        rw [hsize] at h
        cases hcharge : chargeRetained name.length size with
        | error =>
          rw [show (Except.ok size : Except Base64.DecodeError ℕ).mapError
            RetainError.base64 = .ok size
            from rfl] at h
          simp only [bind, Except.bind, hcharge] at h
          cases h
          exact absurd hcharge (chargeRetained_error _ _ _)
        | ok =>
          simp only [Except.mapError, bind, Except.bind, hcharge] at h
          split at h
          · cases h
          · obtain ⟨err, herr⟩ := retainedBinarySize_base64 h
            rw [hothers] at herr
            cases herr

variable {limit : ℕ}

theorem received_of_preflight {total : ℕ} {value : Bytes} {cause : RetainError}
    (h : preflightRetainedMetadata total name value limit = .error cause)
    (hcause : cause ≠ .responseHeadersTooLarge) :
    ∃ err, Metadata.received name value = .error err := by
  have hsize : ∃ reason, retainedMetadataFieldSize name value = .error (.base64 reason) := by
    unfold preflightRetainedMetadata at h
    split at h
    · cases h
      exact absurd rfl hcause
    · rename_i hoverflow hsize
      cases h
      cases cause with
      | overflow => exact absurd rfl hoverflow
      | responseHeadersTooLarge => exact absurd rfl hcause
      | base64 reason => exact ⟨reason, hsize⟩
    · split at h
      · cases h
        exact absurd rfl hcause
      · cases h
  obtain ⟨reason, hsize⟩ := hsize
  unfold retainedMetadataFieldSize at hsize
  split at hsize
  · split at hsize
    · cases hsize
    · exact absurd hsize (chargeRetained_error _ _ _)
  · obtain ⟨err, herr⟩ := retainedBinarySize_base64 hsize
    unfold Metadata.received
    split
    · exact ⟨_, rfl⟩
    · rw [herr]
      exact ⟨err, rfl⟩

namespace Reading

variable {limit : ℕ} {r r' : Reading}

structure Adds (entries : List Entry) (status malformed : Bool) (compression : Compression)
    (r r' : Reading) : Prop where
  metadata : r'.blockMetadata = r.blockMetadata ++ entries
  status : r'.blockGrpcStatus.isSome = (r.blockGrpcStatus.isSome || status)
  malformed : r'.responseMetadataInvalid = (r.responseMetadataInvalid || malformed)
  encoding : r'.responseCompression = compression

def AddsField (f : Field) (r r' : Reading) : Prop :=
  Adds f.entries f.isStatus f.isMalformed (f.encoding r.responseCompression) r r'

variable {name value : Bytes}

theorem AddsField.ofMetadata (entries : List Entry) (malformed : Bool)
    (hstatus : name ≠ ascii "grpc-status") (hencoding : name ≠ ascii "grpc-encoding")
    (hentries : (Field.valid name value).entries = entries)
    (hmalformed : (Field.valid name value).isMalformed = malformed)
    (h : Adds entries false malformed r.responseCompression r r') :
    r.AddsField (.valid name value) r' := by
  have hisStatus : (Field.valid name value).isStatus = false := by simp [Field.isStatus, hstatus]
  have hkeeps : (Field.valid name value).encoding r.responseCompression = r.responseCompression :=
    if_neg hencoding
  subst hentries hmalformed
  unfold AddsField
  rw [hisStatus, hkeeps]
  exact h

theorem AddsField.ofProtocol
    (hname : (isResponseMetadata name || isMalformedResponseMetadataName name) = false)
    (h : Adds [] (Field.valid name value).isStatus false
      ((Field.valid name value).encoding r.responseCompression) r r') :
    r.AddsField (.valid name value) r' := by
  obtain ⟨hmetadata, hformed⟩ := Bool.or_eq_false_iff.mp hname
  simpa [AddsField, Field.entries, Field.isMalformed, hmetadata, hformed] using h

theorem storeMetadata_adds (h : r.storeMetadata limit name value = some r')
    (hstatus : name ≠ ascii "grpc-status") (hencoding : name ≠ ascii "grpc-encoding") :
    r.AddsField (.valid name value) r' := by
  unfold storeMetadata at h
  split at h
  · rename_i hmetadata
    have hrefused : ∀ {err : MetadataError} {total : ℕ}, Metadata.received name value = .error err →
        r.AddsField (.valid name value)
          { r with responseMetadataInvalid := true, retainedResponseMetadataSize := total } := by
      intro err total herr
      refine .ofMetadata [] true hstatus hencoding ?_ ?_
        ⟨by simp, by simp, by simp, rfl⟩
      · simp [Field.entries, hmetadata, herr, Except.toOption]
      · simp [Field.isMalformed, hmetadata, herr, Except.toOption]
    split at h
    · cases h
    · rename_i hcause hpreflight
      obtain ⟨err, herr⟩ := received_of_preflight hpreflight hcause
      cases h
      exact hrefused herr
    · cases h
      unfold addEntries
      split
      · rename_i herr
        exact hrefused herr
      · rename_i new hnew
        refine .ofMetadata new false hstatus hencoding ?_ ?_
          ⟨rfl, by simp, by simp, rfl⟩
        · simp [Field.entries, hmetadata, hnew, Except.toOption]
        · simp [Field.isMalformed, hmetadata, hnew, Except.toOption]
  · rename_i hnot
    cases h
    refine .ofMetadata [] (isMalformedResponseMetadataName name) hstatus hencoding ?_ ?_
      ⟨by simp, by simp, rfl, rfl⟩
    · simp [Field.entries, hnot]
    · simp [Field.isMalformed, hnot]

theorem store_adds (h : r.store limit name value = some r') :
    r.AddsField (.valid name value) r' := by
  unfold store at h
  split_ifs at h with hhttp htype hstatus hmessage hencoding
  · subst hhttp
    cases h
    exact .ofProtocol (by decide +kernel) ⟨by simp, (Bool.or_false _).symm, by simp, rfl⟩
  · subst htype
    cases h
    exact .ofProtocol (by decide +kernel) ⟨by simp, (Bool.or_false _).symm, by simp, rfl⟩
  · subst hstatus
    cases h
    exact .ofProtocol (by decide +kernel) ⟨by simp, (Bool.or_true _).symm, by simp, rfl⟩
  · subst hmessage
    cases h
    exact .ofProtocol (by decide +kernel) ⟨by simp, (Bool.or_false _).symm, by simp, rfl⟩
  · subst hencoding
    split at h
    all_goals
      rename_i hparse
      cases h
      refine .ofProtocol (by decide +kernel) ⟨by simp, (Bool.or_false _).symm, by simp, ?_⟩
      simp [Field.encoding, hparse]
  · exact storeMetadata_adds h hstatus hencoding

theorem field_adds {f : Field} (h : r.field limit f = some r') : r.AddsField f r' := by
  cases f with
  | valid =>
    obtain ⟨charged, hcharged, hstore⟩ := Option.bind_eq_some_iff.mp h
    obtain ⟨total, _, rfl⟩ := Option.map_eq_some_iff.mp hcharged
    exact { store_adds hstore with }
  | invalid =>
    obtain ⟨total, _, rfl⟩ := Option.map_eq_some_iff.mp h
    exact ⟨by simp [Field.entries], by simp [Field.isStatus], by simp [Field.isMalformed], rfl⟩

variable {block : List Field}

theorem fields_adds (h : r.fields limit block = some r') :
    Adds (blockEntries block) (carriesStatus block) (block.any Field.isMalformed)
      (blockEncoding r.responseCompression block) r r' := by
  unfold fields at h
  induction block generalizing r with
  | nil =>
    cases h
    exact ⟨by simp [blockEntries], by simp [carriesStatus], by simp, rfl⟩
  | cons f rest ih =>
    rw [List.foldlM_cons] at h
    obtain ⟨next, hfield, hrest⟩ := Option.bind_eq_some_iff.mp h
    have hone := field_adds hfield
    have hall := ih hrest
    refine ⟨?_, ?_, ?_, ?_⟩
    · rw [hall.metadata, hone.metadata]
      simp [blockEntries]
    · rw [hall.status, hone.status]
      simp [carriesStatus, Bool.or_assoc]
    · rw [hall.malformed, hone.malformed]
      simp [Bool.or_assoc]
    · rw [hall.encoding, hone.encoding]
      rfl

theorem block_adds {first : Bool} (h : r.block limit first block = some r') :
    r'.blockMetadata = blockEntries block ∧ r'.blockGrpcStatus.isSome = carriesStatus block ∧
      r'.outer = (r.start (headerKind first)).outer := by
  have hadds := fields_adds h
  exact ⟨hadds.metadata, hadds.status, fields_outer h⟩

end Reading

section Blocks

variable {σ : Type} {limit : ℕ} {part : σ → Part → Option σ} (read : σ → Reading)
  (put : σ → Reading → σ)

/-- The fields of a block, for a record that keeps a `Reading`. -/
theorem foldlM_fields (hread : ∀ s r, read (put s r) = r)
    (hput : ∀ s r r', put (put s r) r' = put s r') (hself : ∀ s, put s (read s) = s)
    (hfield : ∀ s f, part s (.field f) = ((read s).field limit f).map (put s)) (s : σ)
    (block : List Field) :
    (block.map Part.field).foldlM part s = ((read s).fields limit block).map (put s) := by
  induction block generalizing s with
  | nil => exact congrArg some (hself s).symm
  | cons f rest ih =>
    show (part s (.field f)).bind ((rest.map Part.field).foldlM part) =
      (((read s).field limit f).bind (·.fields limit rest)).map (put s)
    rw [hfield]
    cases (read s).field limit f with
    | none => rfl
    | some r =>
      have hrest := ih (put s r)
      rw [hread] at hrest
      exact hrest.trans (congrArg (Option.map · _) (funext fun r' => hput s r r'))

theorem foldlM_block {close : σ → Bool → σ} (hread : ∀ s r, read (put s r) = r)
    (hput : ∀ s r r', put (put s r) r' = put s r') (hself : ∀ s, put s (read s) = s)
    (hbegin : ∀ s first, part s (.begin first) = some (put s ((read s).start (headerKind first))))
    (hfield : ∀ s f, part s (.field f) = ((read s).field limit f).map (put s))
    (hframe : ∀ s endStream, part s (.frame endStream) =
      if (read s).blockKind = .none then none else some (close s endStream))
    (s : σ) (first : Bool) (block : List Field) (endStream : Bool) :
    (Incoming.block first block endStream).parts.foldlM part s =
      ((read s).block limit first block).map fun r => close (put s r) endStream := by
  show (part s (.begin first)).bind
    ((block.map Part.field ++ [Part.frame endStream]).foldlM part) = _
  rw [hbegin]
  show (block.map Part.field ++ [Part.frame endStream]).foldlM part _ = _
  rw [List.foldlM_append, foldlM_fields read put hread hput hself hfield, hread]
  unfold Reading.block
  cases hfields : ((read s).start (headerKind first)).fields limit block with
  | none => rfl
  | some r =>
    have hkind : r.blockKind = headerKind first :=
      congrArg Reading.Outer.blockKind (Reading.fields_outer hfields)
    show (part (put (put s _) r) (.frame endStream)).bind some = some (close (put s r) endStream)
    rw [hput, hframe, hread, if_neg (by rw [hkind]; unfold headerKind; split <;> nofun)]
    rfl

end Blocks

/-! ## Classification of the blocks -/

namespace Reading

variable {limit : ℕ} {r r' : Reading}

variable {fields : List Field}

theorem close_first (hblock : r.block limit true fields = some r') :
    (r'.close false).initialMetadata =
        r.initialMetadata ++ (if carriesStatus fields then [] else blockEntries fields) ∧
      (r'.close false).trailingMetadata = r.trailingMetadata ∧
      r'.premature false = carriesStatus fields ∧ r'.trailing = carriesStatus fields := by
  obtain ⟨hentries, hstatus, houter⟩ := block_adds hblock
  have hkind : r'.blockKind = .response := congrArg Outer.blockKind houter
  have hinitial : r'.initialMetadata = r.initialMetadata := congrArg Outer.initialMetadata houter
  have htrailing : r'.trailingMetadata = r.trailingMetadata :=
    congrArg Outer.trailingMetadata houter
  have hpremature : r'.premature false = carriesStatus fields := by simp [premature, hkind, hstatus]
  have hlast : r'.trailing = carriesStatus fields := by simp [trailing, hkind, hstatus]
  refine ⟨?_, ?_, hpremature, hlast⟩
  all_goals
    unfold close
    rw [hpremature]
    cases hcarries : carriesStatus fields with
    | true => simp [hinitial, htrailing]
    | false => simp [finish, hlast, hcarries, hinitial, htrailing, hentries]

theorem close_later (endStream : Bool) (hblock : r.block limit false fields = some r') :
    (r'.close endStream).initialMetadata = r.initialMetadata ∧
      (r'.close endStream).trailingMetadata = r.trailingMetadata ++ blockEntries fields ∧
      r'.premature endStream = false ∧ r'.trailing := by
  obtain ⟨hentries, hstatus, houter⟩ := block_adds hblock
  have hkind : r'.blockKind = .trailers := congrArg Outer.blockKind houter
  have hinitial : r'.initialMetadata = r.initialMetadata := congrArg Outer.initialMetadata houter
  have htrailing : r'.trailingMetadata = r.trailingMetadata :=
    congrArg Outer.trailingMetadata houter
  have hpremature : r'.premature endStream = false := by simp [premature, hkind]
  have hlast : r'.trailing := by simp [trailing, hkind]
  unfold close
  rw [hpremature]
  simp [finish, hlast, hinitial, htrailing, hentries]

end Reading

/-- The header blocks of a response: the first one is of the category `HCAT_RESPONSE`, every later
one of the category `HCAT_HEADERS`. -/
def headerBlocks : List (List Field) → List Incoming
  | [] => []
  | first :: later => .block true first false :: later.map (.block false · false)

/-- A response with interim header blocks before its final one, and with trailers. -/
structure Response where
  interim : List (List Field)
  final : List Field
  body : List Bytes
  trailers : List Field
  deriving DecidableEq, Repr

namespace Response

def blocks (response : Response) : List (List Field) := response.interim ++ [response.final]

def incoming (response : Response) : List Incoming :=
  headerBlocks response.blocks ++ response.body.map (.data · false) ++
    [.block false response.trailers true]

def parts (response : Response) : List Part := response.incoming.flatMap Incoming.parts

def firstBlock (response : Response) : List Field := response.blocks.headD []

/-- The first block has no status, and no block but the trailers has metadata if there are interim
blocks. -/
def Classifiable (response : Response) : Prop :=
  carriesStatus response.firstBlock = false ∧
    (response.interim = [] ∨ ∀ block ∈ response.blocks, blockEntries block = [])

instance (response : Response) : Decidable response.Classifiable :=
  inferInstanceAs (Decidable (_ ∧ _))

end Response

/-- What has been read of the header blocks: the initial and the trailing metadata, and the calls of
`on_headers`. -/
structure Receiver.Has (initial trailing : List Entry) (shown : List (List Entry)) (v : Receiver) :
    Prop where
  initial : v.reading.initialMetadata = initial
  trailing : v.reading.trailingMetadata = trailing
  shown : v.shown = shown

namespace Receiver

variable {limit : ℕ} {gzip : Gzip} {v v' : Receiver} {initial trailing : List Entry}
  {shown : List (List Entry)}

theorem receive_append (v : Receiver) (first second : List Part) :
    v.receive limit gzip (first ++ second) =
      (v.receive limit gzip first).bind (·.receive limit gzip second) :=
  List.foldlM_append ..

theorem receive_block (v : Receiver) (first : Bool) (block : List Field) (endStream : Bool) :
    v.receive limit gzip (Incoming.block first block endStream).parts =
      (v.reading.block limit first block).map fun r => { v with reading := r }.close endStream :=
  foldlM_block Receiver.reading (fun v r => { v with reading := r })
    (fun _ _ => rfl) (fun _ _ _ => rfl) (fun _ => rfl) (fun _ _ => rfl) (fun _ _ => rfl)
    (fun _ _ => rfl) v first block endStream

variable {fields : List Field}

theorem Has.first (h : v.Has [] [] []) (huncalled : v.headersCalled = false)
    (hreceive : v.receive limit gzip (Incoming.block true fields false).parts = some v') :
    v'.Has (if carriesStatus fields then [] else blockEntries fields) []
      (if carriesStatus fields then [] else [blockEntries fields]) := by
  rw [receive_block] at hreceive
  obtain ⟨r, hblock, rfl⟩ := Option.map_eq_some_iff.mp hreceive
  obtain ⟨hinitial, htrailing, hpremature, hlast⟩ := Reading.close_first hblock
  rw [h.initial] at hinitial
  rw [h.trailing] at htrailing
  unfold close
  cases hcarries : carriesStatus fields with
  | true =>
    rw [hcarries] at hinitial hpremature
    rw [if_pos hpremature]
    exact ⟨hinitial, htrailing, h.shown⟩
  | false =>
    rw [hcarries] at hinitial hpremature hlast
    have hgoes : ¬r.premature false := by rw [hpremature]; nofun
    have hheaders : ¬(r.trailing ∨ v.headersCalled) := by simp [hlast, huncalled]
    rw [if_neg hgoes, if_neg hheaders]
    refine ⟨hinitial, htrailing, ?_⟩
    show v.shown ++ [(r.close false).initialMetadata] = _
    rw [h.shown, hinitial]
    rfl

section

variable (h : v.Has initial trailing shown)

include h

theorem Has.later {endStream : Bool}
    (hreceive : v.receive limit gzip (Incoming.block false fields endStream).parts = some v') :
    v'.Has initial (trailing ++ blockEntries fields) shown := by
  rw [receive_block] at hreceive
  obtain ⟨r, hblock, rfl⟩ := Option.map_eq_some_iff.mp hreceive
  obtain ⟨hinitial, htrailing, hpremature, hlast⟩ := Reading.close_later endStream hblock
  unfold close
  rw [if_neg (by rw [hpremature]; nofun), if_pos (.inl hlast)]
  exact ⟨hinitial.trans h.initial, by rw [htrailing, h.trailing], h.shown⟩

theorem Has.data {bytes : Bytes}
    (hreceive : v.receive limit gzip (Incoming.data bytes false).parts = some v') :
    v'.Has initial trailing shown := by
  cases hreceive
  unfold Receiver.data
  dsimp only
  split
  · exact h
  · split
    · exact { h with }
    · exact { h with }

theorem Has.laterBlocks {blocks : List (List Field)} (hreceive : v.receive limit gzip
      ((blocks.map (Incoming.block false · false)).flatMap Incoming.parts) = some v') :
    v'.Has initial (trailing ++ blocks.flatMap blockEntries) shown := by
  induction blocks generalizing v trailing with
  | nil =>
    cases hreceive
    simpa using h
  | cons fields rest ih =>
    rw [List.map_cons, List.flatMap_cons, receive_append] at hreceive
    obtain ⟨v₁, hfirst, hrest⟩ := Option.bind_eq_some_iff.mp hreceive
    have hlast := ih (h.later hfirst) hrest
    rwa [List.append_assoc] at hlast

theorem Has.body {chunks : List Bytes} (hreceive : v.receive limit gzip
      ((chunks.map (Incoming.data · false)).flatMap Incoming.parts) = some v') :
    v'.Has initial trailing shown := by
  induction chunks generalizing v with
  | nil =>
    cases hreceive
    exact h
  | cons bytes rest ih =>
    rw [List.map_cons, List.flatMap_cons, receive_append] at hreceive
    obtain ⟨v₁, hfirst, hrest⟩ := Option.bind_eq_some_iff.mp hreceive
    exact ih (h.data hfirst) hrest

end

/-- What a response leaves: the metadata of its first block as initial ones, and those of all its
later blocks as trailing ones. -/
theorem receive_response {maxMessageSize : ℕ} {response : Response}
    (hreceive : (fresh maxMessageSize).receive limit gzip response.parts = some v') :
    v'.Has (if carriesStatus response.firstBlock then [] else blockEntries response.firstBlock)
      (response.blocks.tail.flatMap blockEntries ++ blockEntries response.trailers)
      (if carriesStatus response.firstBlock then [] else [blockEntries response.firstBlock]) := by
  have hne : response.blocks ≠ [] := List.append_ne_nil_of_right_ne_nil _ nofun
  obtain ⟨first, later, hblocks⟩ := List.exists_cons_of_ne_nil hne
  unfold Response.parts Response.incoming at hreceive
  unfold Response.firstBlock
  rw [hblocks] at hreceive ⊢
  rw [List.flatMap_append, List.flatMap_append, receive_append, receive_append, headerBlocks,
    List.flatMap_cons, receive_append] at hreceive
  obtain ⟨v₃, h₃, htrailers⟩ := Option.bind_eq_some_iff.mp hreceive
  obtain ⟨v₂, h₂, hbody⟩ := Option.bind_eq_some_iff.mp h₃
  obtain ⟨v₁, hfirst, hlater⟩ := Option.bind_eq_some_iff.mp h₂
  have hfresh : (fresh maxMessageSize).Has [] [] [] := ⟨rfl, rfl, rfl⟩
  have hread := ((hfresh.first rfl hfirst).laterBlocks hlater).body hbody
  rw [List.flatMap_singleton] at htrailers
  exact hread.later htrailers

end Receiver

/-! ## Both kinds of call -/

/-- A unary call reports the metadata of the final block as initial ones and those of the trailers
as trailing ones. -/
def OperationWorld.Classifies (response : Response) (w : OperationWorld) : Prop :=
  ∃ completion, w.log.completions = [completion] ∧
    completion.initialMetadata = blockEntries response.final ∧
    completion.trailingMetadata = blockEntries response.trailers

/-- A stream calls `on_headers` once, with the metadata of the final block, and `on_terminal` once,
with those of the trailers. -/
def World.Classifies (response : Response) (w : World) : Prop :=
  w.log.marks.filterMap Mark.headers = [blockEntries response.final] ∧
    (w.log.marks.filterMap Mark.report).map Prod.snd = [blockEntries response.trailers]

instance (w : World) : Decidable w.Aborted :=
  haveI : Decidable (∃ status, w.stream.forcedStatus = some status ∧
      status.code = .resourceExhausted) :=
    inferInstanceAs (Decidable (∃ status ∈ w.stream.forcedStatus, status.code = .resourceExhausted))
  inferInstanceAs (Decidable (_ ∨ _))

def World.Consumed (w : World) : Prop :=
  w.stream.terminal ∨ w.stream.receivePaused = false ∧ w.stream.inbound = []

instance (w : World) : Decidable w.Consumed := inferInstanceAs (Decidable (_ ∨ _))

/-- A response tells the two kinds of metadata apart exactly if it can be classified. -/
theorem Response.classifiable_iff (response : Response) :
    response.Classifiable ↔ carriesStatus response.firstBlock = false ∧
      blockEntries response.firstBlock = blockEntries response.final ∧
      response.blocks.tail.flatMap blockEntries = [] := by
  unfold Classifiable firstBlock blocks
  refine and_congr_right fun _ => ?_
  cases response.interim with
  | nil => simp
  | cons first =>
    simp only [List.cons_append, List.headD_cons, List.tail_cons, reduceCtorEq, false_or,
      List.flatMap_eq_nil_iff]
    constructor
    · intro hall
      refine ⟨?_, fun block hmem => hall block (List.mem_cons_of_mem _ hmem)⟩
      rw [hall first List.mem_cons_self, hall response.final (by simp)]
    · rintro ⟨hfirst, hlater⟩ block hmem
      rcases List.mem_cons.mp hmem with rfl | hmem
      · rw [hfirst]
        exact hlater response.final (by simp)
      · exact hlater block hmem

theorem Collector.completion_metadata (gzip : Gzip) (maxResponseSize errorCode : ℕ)
    (c : Collector) :
    (c.completion gzip maxResponseSize errorCode).initialMetadata = c.reading.initialMetadata ∧
      (c.completion gzip maxResponseSize errorCode).trailingMetadata =
        c.reading.trailingMetadata := by
  unfold completion statusCompletion
  repeat' split
  all_goals exact ⟨rfl, rfl⟩

theorem World.Proceeds.reported {setting : Setting} {errorCode : ℕ} {v : Receiver}
    (h : w.Proceeds setting (.closed errorCode) v) (hkept : ¬w.Aborted) (hconsumed : w.Consumed) :
    w.Reported setting v errorCode := by
  rcases h with h | ⟨hreads, hunread⟩ | ⟨code, hcode, hreported⟩
  · exact absurd h hkept
  · rcases hconsumed with hended | ⟨hunpaused, htaken⟩
    · rw [hreads.unended] at hended
      cases hended
    · exact absurd ⟨hreads.transport, by rw [hunpaused]; nofun, htaken⟩ hunread
  · cases hcode
    exact hreported

theorem Receiver.exists_receive {parts : List Part}
    (hfits : (Reading.receive limit {} parts).isSome) (gzip : Gzip) (maxMessageSize : ℕ) :
    ∃ v, (fresh maxMessageSize).receive limit gzip parts = some v ∧
      Reading.receive limit {} parts = some v.reading := by
  obtain ⟨r, hr⟩ := Option.isSome_iff_exists.mp hfits
  have hreading := receive_reading limit gzip (.fresh maxMessageSize) parts
  obtain ⟨v, hv, rfl⟩ := Option.map_eq_some_iff.mp (hreading.trans hr)
  exact ⟨v, hv, hr⟩

theorem Collector.exists_receive (maxResponseSize : ℕ) {parts : List Part} {r : Reading}
    (hr : Reading.receive limit {} parts = some r) :
    ∃ c, receive limit maxResponseSize {} parts = some c ∧ c.reading = r :=
  Option.map_eq_some_iff.mp ((receive_reading limit maxResponseSize {} parts).trans hr)

theorem Operation.run_classifies {w : OperationWorld} {course : UnaryCourse}
    (hready : Operation.IsReady w) (hdue : hasExpired w.operation.deadline course.now = false)
    (hresponse : course.response = response.parts)
    (hfits : (Reading.receive w.maxResponseHeaderListSize {} response.parts).isSome)
    (hclassifiable : response.Classifiable) :
    (Run.final step w course.events).Classifies response := by
  obtain ⟨v, hv, hr⟩ := Receiver.exists_receive hfits w.gzip 0
  obtain ⟨c, hc, hread⟩ := Collector.exists_receive w.operation.maxResponseSize hr
  have hhas := Receiver.receive_response hv
  obtain ⟨hstatus, hfirst, hlater⟩ := response.classifiable_iff.mp hclassifiable
  obtain ⟨hinitial, htrailing⟩ := c.completion_metadata w.gzip w.operation.maxResponseSize
    course.errorCode
  refine ⟨_, run_course hready hdue (hresponse ▸ hc), ?_, ?_⟩
  · rw [hinitial, hread, hhas.initial, hstatus, ← hfirst]
    rfl
  · rw [htrailing, hread, hhas.trailing, hlater]
    rfl

theorem run_classifies_iff {course : Course} (hready : w.IsReady)
    (hheaders : w.stream.callbacks.onHeaders) (hintime : course.InTime w.stream.deadline)
    (hresponse : course.response = response.parts)
    (hfits : (Reading.receive w.maxResponseHeaderListSize {} response.parts).isSome)
    (hkept : ¬(Run.final step w course.events).Aborted)
    (hconsumed : (Run.final step w course.events).Consumed) :
    (Run.final step w course.events).Classifies response ↔ response.Classifiable := by
  obtain ⟨v, hv, -⟩ := Receiver.exists_receive hfits w.gzip w.stream.limits.maxMessageSize
  have hhas := Receiver.receive_response hv
  have hreported := (run_course hready hintime (hresponse ▸ hv)).reported hkept hconsumed
  unfold World.Classifies
  rw [hreported.shown hheaders, hreported.report, hhas.shown, response.classifiable_iff]
  cases carriesStatus response.firstBlock with
  | true => simp
  | false => simp [hhas.trailing]

/-- Both kinds of call tell the metadata of the final block from those of the trailers exactly if
the response has no interim blocks, or none with metadata, and no early status.  The block that
counts as the final one is the first one, whatever its `:status` is. -/
theorem header_blocks_classified {u : OperationWorld} {w : World} {unary : UnaryCourse}
    {course : Course} {response : Response} (hu : Operation.IsReady u)
    (hdue : hasExpired u.operation.deadline unary.now = false)
    (hunary : unary.response = response.parts)
    (hunaryFits : (Reading.receive u.maxResponseHeaderListSize {} response.parts).isSome)
    (hw : w.IsReady) (hheaders : w.stream.callbacks.onHeaders)
    (hintime : course.InTime w.stream.deadline) (hstream : course.response = response.parts)
    (hfits : (Reading.receive w.maxResponseHeaderListSize {} response.parts).isSome)
    (hkept : ¬(Run.final step w course.events).Aborted)
    (hconsumed : (Run.final step w course.events).Consumed) :
    (Run.final Operation.step u unary.events).Classifies response ∧
        (Run.final step w course.events).Classifies response ↔ response.Classifiable := by
  have hiff := run_classifies_iff hw hheaders hintime hstream hfits hkept hconsumed
  constructor
  · rintro ⟨_, hclassifies⟩
    exact hiff.mp hclassifies
  · intro hclassifiable
    exact ⟨Operation.run_classifies hu hdue hunary hunaryFits hclassifiable, hiff.mpr hclassifiable⟩

/-! ## Responses on the wire -/

def UnaryCourse.of (incoming : List Incoming) (errorCode : ℕ) : UnaryCourse :=
  ⟨0, 1, (incoming.flatMap Incoming.parts).map .part, errorCode⟩

def Course.of (incoming : List Incoming) (errorCode : ℕ) : Course where
  now := 0
  id := 1
  turns := (incoming.flatMap Incoming.parts).map .part
  errorCode := errorCode
  closedAt := 0

theorem sampleOperation_ready : Operation.IsReady sampleOperation :=
  { sampleOperation_enqueued with connected := rfl, faults := rfl }

theorem sampleStream_ready : sampleStream.IsReady :=
  { sampleStream_opened with connected := rfl, faults := rfl }

def headerField (name value : String) : Field := .valid (ascii name) (ascii value)

def plainResponse : Response where
  interim := []
  final := [headerField ":status" "200", headerField "content-type" "application/grpc",
    headerField "x-initial" "1"]
  body := [[0, 0, 0], [0, 1, 7]]
  trailers := [headerField "grpc-status" "0", headerField "x-trailing" "2"]

def hintedResponse : Response :=
  { plainResponse with interim := [[headerField ":status" "103", headerField "link" "style"]] }

theorem header_blocks_classified_plain :
    plainResponse.Classifiable ∧
      (Run.final Operation.step sampleOperation
        (UnaryCourse.of plainResponse.incoming noError).events).Classifies plainResponse ∧
      (Run.final step sampleStream (Course.of plainResponse.incoming noError).events).Classifies
        plainResponse := by
  have hclassifiable : plainResponse.Classifiable := by decide +kernel
  exact ⟨hclassifiable, (header_blocks_classified sampleOperation_ready rfl (by decide +kernel)
    (by decide +kernel) sampleStream_ready rfl ⟨rfl, fun _ => rfl⟩ (by decide +kernel)
    (by decide +kernel) (by decide +kernel) (by decide +kernel)).mpr hclassifiable⟩

/-- The hints are reported as initial metadata, and the metadata of the final block as trailing
ones. -/
theorem hints_reported_as_initial_metadata :
    ¬(Run.final Operation.step sampleOperation
        (UnaryCourse.of hintedResponse.incoming noError).events).Classifies hintedResponse ∧
      ¬(Run.final step sampleStream (Course.of hintedResponse.incoming noError).events).Classifies
        hintedResponse := by
  constructor
  · rintro ⟨completion, hcompletion, hinitial, _⟩
    have hhints : (Run.final Operation.step sampleOperation (UnaryCourse.of hintedResponse.incoming
        noError).events).log.completions.map Completion.initialMetadata =
        [[⟨ascii "link", ascii "style"⟩]] := by decide +kernel
    rw [hcompletion, List.map_singleton, hinitial] at hhints
    exact absurd hhints (by decide +kernel)
  · rintro ⟨hheaders, _⟩
    exact absurd hheaders (by decide +kernel)

end GrpcLite.Client
