import GrpcLite.Server.Stream

/-!
# Request header intake

`onHeader` of `server.zig`: every request header field is charged against a fixed 64 KiB limit
by its physical size and then stored.  The limit does not charge the copies of a binary field's
key that splitting its value at the commas makes, so what is retained is bounded by the limit
plus those copies.
-/

namespace GrpcLite.Server

open Prog

/-- `NGHTTP2_ERR_CALLBACK_FAILURE`: nghttp2 gives up the session. -/
inductive CallbackFailure where
  | callbackFailure
  deriving DecidableEq, Repr

abbrev StreamM := EStateM CallbackFailure Stream

inductive HeadersCategory where
  | request
  | response
  | pushResponse
  | headers
  deriving DecidableEq, Repr

def maxHeaderBytes : ℕ := 64 * 1024

def trimBlank (value : Bytes) : Bytes :=
  let blank (byte : UInt8) : Bool := byte == 32 || byte == 9
  ((value.dropWhile blank).reverse.dropWhile blank).reverse

def acceptsEncoding (value : Bytes) (encoding : Compression) : Bool :=
  (value.splitOn comma).any fun item => trimBlank item == encoding.name

def isReservedRequestHeader (name : Bytes) : Bool :=
  name == ascii "content-type" || name == ascii "te" || name == ascii "user-agent" ||
    (ascii "grpc-").isPrefixOf name

def isRequestMetadata (name : Bytes) : Bool :=
  isApplicationKey name && !isReservedRequestHeader name

def isMalformedRequestMetadataName (name : Bytes) : Bool :=
  if name.isEmpty || name.head? == some 58 || isReservedRequestHeader name then false
  else !isValidKey name

namespace Stream

def alloc : StreamM Unit := do
  match (← get).allocator with
  | [] => pure ()
  | fails :: rest =>
    modify fun s => { s with allocator := rest }
    if fails then throw .callbackFailure

def clearStreamDeadline : StreamM Unit :=
  modify fun s => { s with deadlineEntry := none, deadline := none }

def removeStreamDeadline : StreamM Unit :=
  modify fun s => { s with deadlineEntry := none }

/-- Inserting into the heap allocates unless the stream already has an entry. -/
def setStreamDeadline (expiresAt : ℕ) : StreamM Unit := do
  when ((← get).deadlineEntry = none) alloc
  modify fun s => { s with deadlineEntry := some expiresAt, deadline := some expiresAt }

def onTimeout (now : ℕ) (value : Bytes) : StreamM Unit := do
  if (← get).timeoutSeen then
    modify fun s => { s with timeoutInvalid := true }
    clearStreamDeadline
  else
    modify fun s => { s with timeoutSeen := true }
    match parseTimeout value with
    | none => modify fun s => { s with timeoutInvalid := true }
    | some timeout => setStreamDeadline (satAdd now timeout)

def onRequestMetadata (name value : Bytes) : StreamM Unit := do
  let s ← get
  match Metadata.appendDecoded name value s.requestMetadata with
  | .ok _ metadata => set { s with requestMetadata := metadata }
  | .error .outOfMemory metadata =>
    set { s with requestMetadata := metadata }
    throw .callbackFailure
  | .error _ metadata => set { s with requestMetadata := metadata, requestMetadataInvalid := true }

def storeField (now : ℕ) (name value : Bytes) : StreamM Unit :=
  if name = ascii ":path" then do
    alloc
    modify fun s => { s with path := some value }
  else if name = ascii ":method" then
    modify fun s => { s with methodPost := value = ascii "POST" }
  else if name = ascii "content-type" then
    modify fun s => { s with contentTypeGrpc := (ascii "application/grpc").isPrefixOf value }
  else if name = ascii "grpc-encoding" then
    modify fun s => { s with requestCompression := Compression.parse value }
  else if name = ascii "grpc-accept-encoding" then
    modify fun s =>
      { s with acceptsResponseGzip := s.acceptsResponseGzip || acceptsEncoding value .gzip }
  else if name = ascii "grpc-timeout" then onTimeout now value
  else if isRequestMetadata name then onRequestMetadata name value
  else when (isMalformedRequestMetadataName name)
    (modify fun s => { s with requestMetadataInvalid := true })

/-- `onHeader` on the stream found under the frame's id, with `now` the clock's value. -/
def onHeader (now : ℕ) (category : HeadersCategory) (name value : Bytes) : StreamM Unit :=
  if category ≠ .request then pure () else do
  match checkedAdd name.length value.length with
  | none => modify fun s => { s with headerTooLarge := true }
  | some fieldSize =>
    match checkedAdd (← get).headerBytes fieldSize with
    | none => modify fun s => { s with headerTooLarge := true }
    | some headerBytes =>
      modify fun s => { s with headerBytes := headerBytes }
      if maxHeaderBytes < headerBytes then modify fun s => { s with headerTooLarge := true }
      else storeField now name value

end Stream

structure HeaderField where
  now : ℕ
  category : HeadersCategory
  name : Bytes
  value : Bytes
  deriving DecidableEq, Repr

/-- The stream after a sequence of header callbacks; a failed callback is the last one. -/
def receiveHeaders : List HeaderField → Stream → Stream
  | [], stream => stream
  | field :: rest, stream =>
    match Stream.onHeader field.now field.category field.name field.value stream with
    | .ok _ next => receiveHeaders rest next
    | .error _ next => next

/-! ## What the limit bounds -/

/-- The two streams agree on what the header limit is about. -/
structure SameBudget (s t : Stream) : Prop where
  tooLarge : t.headerTooLarge = s.headerTooLarge
  bytes : t.headerBytes = s.headerBytes
  metadata : t.requestMetadata = s.requestMetadata

namespace SameBudget

variable {s : Stream}

theorem refl (s : Stream) : SameBudget s s := ⟨rfl, rfl, rfl⟩

theorem alloc_keeps : Keeps (SameBudget s) Stream.alloc := by
  refine .bind .get fun t => ?_
  split
  · exact .pure ()
  · refine .bind (.modify fun t ht => ⟨ht.1, ht.2, ht.3⟩) fun _ => ?_
    exact .ite (fun _ => .throw fun _ => id) (fun _ => .pure _)

theorem onTimeout_keeps (now : ℕ) (value : Bytes) :
    Keeps (SameBudget s) (Stream.onTimeout now value) := by
  refine .bind .get fun t => .ite (fun _ => ?_) (fun _ => ?_)
  · exact .bind (.modify fun t ht => ⟨ht.1, ht.2, ht.3⟩) fun _ =>
      .modify fun t ht => ⟨ht.1, ht.2, ht.3⟩
  · refine .bind (.modify fun t ht => ⟨ht.1, ht.2, ht.3⟩) fun _ => ?_
    split
    · exact .modify fun t ht => ⟨ht.1, ht.2, ht.3⟩
    · refine .bind .get fun t => .bind (.when fun _ => alloc_keeps) fun _ => ?_
      exact .modify fun t ht => ⟨ht.1, ht.2, ht.3⟩

theorem storeField_keeps (now : ℕ) {name : Bytes} (value : Bytes)
    (hname : isRequestMetadata name = false) :
    Keeps (SameBudget s) (Stream.storeField now name value) := by
  unfold Stream.storeField
  refine .ite (fun _ => ?path) fun _ => .ite (fun _ => ?method) fun _ =>
    .ite (fun _ => ?contentType)
    fun _ => .ite (fun _ => ?encoding) fun _ => .ite (fun _ => ?acceptEncoding) fun _ =>
    .ite (fun _ => ?timeout) fun _ => .ite (fun h => ?metadata) fun _ => .when fun _ => ?malformed
  case path => exact .bind alloc_keeps fun _ => .modify fun t ht => ⟨ht.1, ht.2, ht.3⟩
  case timeout => exact onTimeout_keeps now value
  case metadata => simp [hname] at h
  all_goals exact .modify fun t ht => ⟨ht.1, ht.2, ht.3⟩

end SameBudget

/-- The key copies of a field that the limit does not charge. -/
def uncharged (field : HeaderField) : ℕ :=
  if field.category = .request ∧ isRequestMetadata field.name then
    Metadata.expansion field.name field.value
  else 0

/-- Until the limit is exceeded, the stream retains what was charged and at most `extra`. -/
def WithinBudget (extra : ℕ) (s : Stream) : Prop :=
  s.headerTooLarge = false →
    s.headerBytes ≤ maxHeaderBytes ∧ s.requestMetadata.retained ≤ s.headerBytes + extra

variable {extra : ℕ} {s : Stream}

theorem WithinBudget.mono {more : ℕ} (h : WithinBudget extra s) (hle : extra ≤ more) :
    WithinBudget more s := by
  intro hs
  have := h hs
  omega

theorem WithinBudget.of_sameBudget {t : Stream} (h : WithinBudget extra s) (hst : SameBudget s t) :
    WithinBudget extra t := by
  unfold WithinBudget
  rw [hst.tooLarge, hst.bytes, hst.metadata]
  exact h

/-- A metadata field that was charged adds at most its charge and its uncharged copies. -/
theorem onRequestMetadata_wp (name value : Bytes)
    (hs : s.headerTooLarge = false → s.headerBytes ≤ maxHeaderBytes ∧
      s.requestMetadata.retained + (name.length + value.length) ≤ s.headerBytes + extra) :
    wp (Stream.onRequestMetadata name value)
      (fun _ => WithinBudget (extra + Metadata.expansion name value))
      (fun _ => WithinBudget (extra + Metadata.expansion name value)) s := by
  have happend := Metadata.appendDecoded_wp name value s.requestMetadata
  simp only [Stream.onRequestMetadata, wp_bind, wp_get]
  unfold wp at happend
  split at happend
  all_goals rename_i result metadata hresult
  · rw [hresult]
    simp only [wp_set]
    intro hfits
    obtain ⟨hbytes, hretained⟩ := hs hfits
    refine ⟨hbytes, ?_⟩
    dsimp only
    omega
  · rw [hresult]
    have hsame : metadata.retained = s.requestMetadata.retained := by
      rw [Metadata.retained, happend, Metadata.retained]
    cases result with
    | _ =>
        simp only [wp_bind, wp_set, wp_throw]
        intro hfits
        obtain ⟨hbytes, hretained⟩ := hs hfits
        refine ⟨hbytes, ?_⟩
        dsimp only
        omega

theorem storeField_of_isRequestMetadata (now : ℕ) {name : Bytes} (value : Bytes)
    (hname : isRequestMetadata name) :
    Stream.storeField now name value = Stream.onRequestMetadata name value := by
  have hne : ∀ other, isRequestMetadata other = false → name ≠ other := by
    rintro other hother rfl
    rw [hname] at hother
    cases hother
  unfold Stream.storeField
  rw [if_neg (hne _ (by decide)), if_neg (hne _ (by decide)), if_neg (hne _ (by decide)),
    if_neg (hne _ (by decide)), if_neg (hne _ (by decide)), if_neg (hne _ (by decide)),
    if_pos hname]

theorem onHeader_wp (field : HeaderField) (hs : WithinBudget extra s) :
    wp (Stream.onHeader field.now field.category field.name field.value)
      (fun _ => WithinBudget (extra + uncharged field))
      (fun _ => WithinBudget (extra + uncharged field)) s := by
  have hover : ∀ (t : Stream), t.headerTooLarge = true → ∀ n, WithinBudget n t := by
    intro t ht n hfits
    rw [ht] at hfits
    cases hfits
  unfold Stream.onHeader
  split
  · exact hs.mono (Nat.le_add_right _ _)
  split
  · exact hover _ rfl _
  rename_i hsize
  simp only [wp_bind, wp_get]
  split
  · exact hover _ rfl _
  rename_i headerBytes hbytes
  obtain rfl := checkedAdd_eq_some hsize
  obtain rfl := checkedAdd_eq_some hbytes
  simp only [wp_bind, wp_modify]
  split
  · exact hover _ rfl _
  by_cases hname : isRequestMetadata field.name
  · rw [storeField_of_isRequestMetadata _ _ hname, uncharged, if_pos ⟨by tauto, hname⟩]
    refine onRequestMetadata_wp _ _ fun hfits => ?_
    obtain ⟨-, hretained⟩ := hs hfits
    refine ⟨by dsimp only; omega, ?_⟩
    dsimp only
    omega
  · have hcharged : WithinBudget (extra + uncharged field)
        { s with headerBytes := s.headerBytes + (field.name.length + field.value.length) } := by
      intro hfits
      obtain ⟨-, hretained⟩ := hs hfits
      refine ⟨by dsimp only; omega, ?_⟩
      dsimp only
      omega
    refine wp_mono (SameBudget.storeField_keeps _ _ (by simpa using hname) _ (.refl _)) ?_ ?_
    · exact fun _ _ hsame => hcharged.of_sameBudget hsame
    · exact fun _ _ hsame => hcharged.of_sameBudget hsame

theorem receiveHeaders_withinBudget (fields : List HeaderField) (hs : WithinBudget extra s) :
    WithinBudget (extra + (fields.map uncharged).sum) (receiveHeaders fields s) := by
  induction fields generalizing extra s with
  | nil => simpa [receiveHeaders] using hs
  | cons field rest ih =>
      have hstep := onHeader_wp field hs
      unfold wp at hstep
      unfold receiveHeaders
      rw [List.map_cons, List.sum_cons, ← Nat.add_assoc]
      split at hstep
      · rename_i hrun
        rw [hrun]
        exact ih hstep
      · rename_i hrun
        rw [hrun]
        exact hstep.mono (Nat.le_add_right _ _)

/-- For every sequence of header fields, as long as the limit has not been exceeded, the
retained request metadata is at most the limit plus one copy of the key for every comma in the
value of a binary field. -/
theorem retained_le_limit_add_key_copies (fields : List HeaderField)
    (allocator metadataAllocator : List Bool) :
    let stream := receiveHeaders fields
      { allocator := allocator, requestMetadata := { allocator := metadataAllocator } }
    stream.headerTooLarge = false →
      stream.requestMetadata.retained ≤ maxHeaderBytes + (fields.map uncharged).sum := by
  intro stream hfits
  have hinit : WithinBudget 0
      { allocator := allocator, requestMetadata := { allocator := metadataAllocator } } :=
    fun _ => ⟨Nat.zero_le _, Nat.le_refl _⟩
  obtain ⟨hbytes, hretained⟩ := receiveHeaders_withinBudget fields hinit hfits
  rw [Nat.zero_add] at hretained
  exact hretained.trans (Nat.add_le_add_right hbytes _)

/-- A binary field of 300 empty values under a key of 300 bytes. -/
def commaField : HeaderField where
  now := 0
  category := .request
  name := List.replicate 296 97 ++ ascii "-bin"
  value := List.replicate 299 comma

theorem retained_le_limit_add_key_copies_commaField :
    (receiveHeaders [commaField] {}).headerTooLarge = false ∧
      (receiveHeaders [commaField] {}).requestMetadata.retained ≤
        maxHeaderBytes + ([commaField].map uncharged).sum :=
  ⟨by decide +kernel,
    retained_le_limit_add_key_copies [commaField] [] [] (by decide +kernel)⟩

theorem retained_exceeds_limit :
    (receiveHeaders [commaField] {}).headerTooLarge = false ∧
      (receiveHeaders [commaField] {}).requestMetadata.retained = 300 * 300 ∧
      maxHeaderBytes < 300 * 300 := by
  decide +kernel

end GrpcLite.Server
