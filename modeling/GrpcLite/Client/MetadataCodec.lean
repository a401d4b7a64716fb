import GrpcLite.Client.Headers

/-!
# The metadata codec

An entry that the application may append arrives as it was sent; a field of several binary values
is read as its values one by one, or not at all; and what a field is charged before it is read is
what it then retains.
-/

namespace GrpcLite.Metadata

open Prog

/-! ## Fields and entries -/

def joined (values : List Bytes) : Bytes := [comma].intercalate values

theorem comma_not_mem_encode (value : Bytes) : comma ∉ Base64.encode value := by
  have hdigit : ∀ index : Fin 64, Base64.indexToChar index ≠ comma := by decide
  intro hmem
  obtain hpad | ⟨index, hindex⟩ := Base64.mem_encode hmem
  · exact absurd hpad (by decide)
  · exact hdigit index hindex.symm

theorem decodedPiece_encode (value : Bytes) : decodedPiece (Base64.encode value) = .ok value := by
  obtain ⟨size, hsize⟩ := Base64.calcSizeForSlice_encode value
  have hdecode := Base64.decode_encode value
  unfold Base64.decoderFor at hsize hdecode
  simp only [decodedPiece, hsize, hdecode]
  rfl

variable {key value : Bytes} {new : List Entry} {values : List Bytes} {total : ℕ}

theorem received_encodeOutboundValue (hkey : isApplicationKey key = true)
    (hvalue : isBinaryKey key = true ∨ isValidAsciiValue value = true) :
    received key (encodeOutboundValue key value) = .ok [⟨key, value⟩] := by
  unfold received encodeOutboundValue
  by_cases hbinary : isBinaryKey key = true
  · simp only [hkey, hbinary, if_true, Bool.not_true, Bool.false_eq_true, if_false]
    rw [List.splitOn_eq_singleton (comma_not_mem_encode value)]
    simp only [decodedPieces, decodedPiece_encode]
    rfl
  · have hvalid := hvalue.resolve_left hbinary
    simp [hkey, hbinary, hvalid]

theorem splitOn_joined (first : Bytes) (rest : List Bytes) :
    (joined (first :: rest)).splitOn comma = (first :: rest).flatMap (List.splitOn comma) := by
  induction rest generalizing first with
  | nil => simp [joined, List.intercalate]
  | cons second rest ih =>
    have hjoin : joined (first :: second :: rest) = first ++ comma :: joined (second :: rest) := by
      simp [joined, List.intercalate]
    rw [hjoin, List.splitOn_append_cons_self, ih]
    rfl

variable {pieces decoded : List Bytes} {m m' : Metadata}

theorem decodedPieces_append (pieces others : List Bytes) :
    decodedPieces (pieces ++ others) =
      (decodedPieces pieces).bind fun decoded => (decodedPieces others).map (decoded ++ ·) := by
  induction pieces with
  | nil => cases hothers : decodedPieces others <;> simp [decodedPieces, hothers] <;> rfl
  | cons piece pieces ih =>
    simp only [List.cons_append, decodedPieces, ih]
    cases decodedPiece piece with
    | error => rfl
    | ok =>
      cases decodedPieces pieces with
      | error => rfl
      | ok => cases decodedPieces others <;> rfl

section Binary

variable {key : Bytes} (hkey : isApplicationKey key = true) (hbinary : isBinaryKey key = true)
include hkey hbinary

theorem received_binary (value : Bytes) : received key value =
    (decodedPieces (value.splitOn comma)).map fun values => values.map (Entry.mk key) := by
  simp [received, hkey, hbinary]

variable {values : List Bytes}

theorem received_joined {news : List (List Entry)} (hne : values ≠ [])
    (h : List.Forall₂ (fun value new => received key value = .ok new) values news) :
    received key (joined values) = .ok news.flatten := by
  have hall : decodedPieces (values.flatMap (List.splitOn comma)) = .ok
      (news.flatten.map Entry.value) ∧ news.flatten = (news.flatten.map Entry.value).map
        (Entry.mk key) := by
    clear hne
    induction h with
    | nil => exact ⟨rfl, rfl⟩
    | cons hvalue _ ih =>
      rename_i value new values news _
      rw [received_binary hkey hbinary] at hvalue
      cases hpieces : decodedPieces (value.splitOn comma) with
      | error =>
        rw [hpieces] at hvalue
        cases hvalue
      | ok decoded =>
        rw [hpieces] at hvalue
        obtain rfl : decoded.map (Entry.mk key) = new := Except.ok.inj hvalue
        rw [List.flatMap_cons, decodedPieces_append, hpieces, ih.1]
        refine ⟨?_, ?_⟩
        · simp [Except.bind, Except.map, Function.comp_def]
        · simpa [Function.comp_def] using ih.2
  obtain ⟨first, rest, rfl⟩ := List.exists_cons_of_ne_nil hne
  rw [received_binary hkey hbinary, splitOn_joined, hall.1]
  exact congrArg Except.ok hall.2.symm

theorem received_joined_error {value : Bytes} {err : MetadataError} (hmem : value ∈ values)
    (herr : received key value = .error err) :
    ∃ err, received key (joined values) = .error err := by
  rw [received_binary hkey hbinary] at herr
  have hspoiled : ∃ err, decodedPieces (values.flatMap (List.splitOn comma)) = .error err := by
    obtain ⟨before, after, rfl⟩ := List.append_of_mem hmem
    cases hpieces : decodedPieces (value.splitOn comma) with
    | ok =>
      rw [hpieces] at herr
      cases herr
    | error other =>
      rw [List.flatMap_append, List.flatMap_cons, decodedPieces_append, decodedPieces_append,
        hpieces]
      cases decodedPieces (before.flatMap (List.splitOn comma)) with
      | error first => exact ⟨first, rfl⟩
      | ok => exact ⟨other, rfl⟩
  obtain ⟨err, hspoiled⟩ := hspoiled
  obtain ⟨first, rest, rfl⟩ := List.exists_cons_of_ne_nil (List.ne_nil_of_mem hmem)
  rw [received_binary hkey hbinary, splitOn_joined, hspoiled]
  exact ⟨err, rfl⟩

end Binary

/-! ## Reading several fields -/

theorem appendDecoded_reads (entries : List Entry) (h : received key value = .ok new) :
    ∃ result, (appendDecoded key value).run ⟨[], entries⟩ = .ok result ⟨[], entries ++ new⟩ := by
  have hrun := appendDecoded_unfailing entries key value
  unfold wp at hrun
  split at hrun
  · rename_i result m hresult
    obtain ⟨new', hnew', rfl⟩ := hrun
    obtain rfl : new = new' := Except.ok.inj (h.symm.trans hnew')
    exact ⟨result, hresult⟩
  · obtain ⟨herr, -⟩ := hrun
    rw [h] at herr
    cases herr

def appendEach (key : Bytes) : List Bytes → MetadataM Unit
  | [] => pure ()
  | value :: rest => do
    let _ ← appendDecoded key value
    appendEach key rest

theorem appendEach_run {news : List (List Entry)} (entries : List Entry)
    (h : List.Forall₂ (fun value new => received key value = .ok new) values news) :
    (appendEach key values).run ⟨[], entries⟩ = .ok () ⟨[], entries ++ news.flatten⟩ := by
  induction h generalizing entries with
  | nil => simp [appendEach]
  | cons hvalue _ ih =>
    rename_i new values news _
    obtain ⟨result, hresult⟩ := appendDecoded_reads entries hvalue
    have hrest := ih (entries ++ new)
    simp only [appendEach, EStateM.run_bind, hresult, hrest, List.flatten_cons, List.append_assoc]

/-! ## Charges -/

def charge (entries : List Entry) : ℕ :=
  (entries.map fun entry => entry.key.length + entry.value.length + 32).sum

/-- A sum of machine words. -/
def checked (total : ℕ) : Except Client.RetainError ℕ :=
  if total ≤ maxU64 then .ok total else .error .overflow

theorem chargeRetained_eq (nameLength valueLength : ℕ) :
    Client.chargeRetained nameLength valueLength = checked (nameLength + valueLength + 32) := by
  unfold Client.chargeRetained checked checkedAdd
  by_cases hfield : nameLength + valueLength ≤ maxU64
  · by_cases htotal : nameLength + valueLength + 32 ≤ maxU64 <;> simp [hfield, htotal]
  · have htotal : ¬nameLength + valueLength + 32 ≤ maxU64 := by omega
    simp [hfield, htotal]

theorem decodedPiece_eq (encoded : Bytes) :
    decodedPiece encoded = match Base64.calcSizeForSlice (Base64.decoderFor encoded) encoded with
      | .error err => .error (.base64 err)
      | .ok _ => (Base64.decode (Base64.decoderFor encoded) encoded).mapError .base64 := rfl

theorem calcSizeForSlice_decodedPiece {encoded decoded : Bytes}
    (h : decodedPiece encoded = .ok decoded) :
    Base64.calcSizeForSlice (Base64.decoderFor encoded) encoded = .ok decoded.length := by
  rw [decodedPiece_eq] at h
  cases hsize : Base64.calcSizeForSlice (Base64.decoderFor encoded) encoded with
  | error =>
    rw [hsize] at h
    cases h
  | ok =>
    rw [hsize] at h
    cases hdecode : Base64.decode (Base64.decoderFor encoded) encoded with
    | error =>
      rw [hdecode] at h
      cases h
    | ok value =>
      rw [hdecode] at h
      obtain rfl : value = decoded := Except.ok.inj h
      unfold Base64.decoderFor at hsize hdecode
      split at hsize
      · rename_i hpadded
        rw [if_pos hpadded] at hdecode
        rw [Base64.decode_length_standard hsize hdecode]
      · rename_i hpadded
        rw [if_neg hpadded] at hdecode
        rw [Base64.decode_length_standardNoPad hsize hdecode]

theorem checked_error (h : ¬total ≤ maxU64) : checked total = .error .overflow :=
    if_neg h

theorem checked_ok (h : total ≤ maxU64) : checked total = .ok total := if_pos h

theorem retainedBinarySize_eq (key : Bytes) (h : decodedPieces pieces = .ok decoded)
    (htotal : total ≤ maxU64) :
    Client.retainedBinarySize key pieces total =
      checked (total + charge (decoded.map (Entry.mk key))) := by
  induction pieces generalizing decoded total with
  | nil =>
    obtain rfl : [] = decoded := Except.ok.inj h
    exact (checked_ok htotal).symm
  | cons piece pieces ih =>
    obtain ⟨value, others, hpiece, hrest, rfl⟩ := decodedPieces_cons_ok h
    have hsize := calcSizeForSlice_decodedPiece hpiece
    unfold Base64.decoderFor at hsize
    have hcharge : charge ((value :: others).map (Entry.mk key)) =
        key.length + value.length + 32 + charge (others.map (Entry.mk key)) := by
      simp [charge]
    simp only [Client.retainedBinarySize, hsize, Except.mapError, chargeRetained_eq, bind,
      Except.bind, hcharge]
    by_cases hentry : key.length + value.length + 32 ≤ maxU64
    · simp only [checked_ok hentry]
      by_cases hnext : total + (key.length + value.length + 32) ≤ maxU64
      · simp only [checkedAdd, if_pos hnext]
        rw [ih hrest hnext, Nat.add_assoc]
      · simp only [checkedAdd, if_neg hnext]
        exact (checked_error (by omega)).symm
    · simp only [checked_error hentry]
      exact (checked_error (by omega)).symm

theorem retainedMetadataFieldSize_eq (h : received key value = .ok new) :
    Client.retainedMetadataFieldSize key value = checked (charge new) := by
  unfold received at h
  unfold Client.retainedMetadataFieldSize
  split at h
  · cases h
  split at h
  · rename_i hascii
    rw [if_pos hascii]
    obtain rfl := Except.ok.inj h
    cases hvalid : isValidAsciiValue value with
    | false => exact (checked_ok (Nat.zero_le _)).symm
    | true =>
      simp only [Bool.not_true, Bool.false_eq_true, if_false, if_true]
      rw [chargeRetained_eq]
      simp [charge]
  · rename_i hbinary
    rw [if_neg hbinary]
    cases hpieces : decodedPieces (value.splitOn comma) with
    | error =>
      rw [hpieces] at h
      cases h
    | ok decoded =>
      rw [hpieces] at h
      obtain rfl : decoded.map (Entry.mk key) = new := Except.ok.inj h
      rw [retainedBinarySize_eq key hpieces (Nat.zero_le _), Nat.zero_add]

/-! ## The codec -/

/-- A field that can be read: `appendDecoded` succeeds if its allocations do. -/
def Readable (key value : Bytes) : Prop := ∃ result m,
    (appendDecoded key value).run {} = .ok result m

theorem readable_iff : Readable key value ↔ ∃ new,
    received key value = .ok new := by
  constructor
  · rintro ⟨result, m, hrun⟩
    have hspec := appendDecoded_spec key value {}
    unfold wp at hspec
    split at hspec
    · obtain ⟨new, hnew, -⟩ := hspec
      exact ⟨new, hnew⟩
    · rename_i hfailed
      cases hrun.symm.trans hfailed
  · rintro ⟨new, hnew⟩
    obtain ⟨result, hrun⟩ := appendDecoded_reads [] hnew
    exact ⟨result, _, hrun⟩

theorem Readable.application (h : Readable key value) : isApplicationKey key = true := by
  obtain ⟨new, hnew⟩ := readable_iff.mp h
  unfold received at hnew
  split at hnew
  · cases hnew
  · rename_i hkey
    simpa using hkey

theorem exists_news (h : ∀ value ∈ values, Readable key value) :
    ∃ news, List.Forall₂ (fun value new => received key value = .ok new) values news := by
  induction values with
  | nil => exact ⟨[], .nil⟩
  | cons value rest ih =>
    obtain ⟨new, hnew⟩ := readable_iff.mp (h value List.mem_cons_self)
    obtain ⟨news, hnews⟩ := ih fun other hmem => h other (List.mem_cons_of_mem _ hmem)
    exact ⟨new :: news, .cons hnew hnews⟩

theorem readable_joined (hbinary : isBinaryKey key = true) (hne : values ≠ []) :
    Readable key (joined values) ↔ ∀ value ∈ values, Readable key value := by
  constructor
  · intro h value hmem
    by_contra hvalue
    obtain ⟨err, herr⟩ : ∃ err, received key value = .error err := by
      cases hreceived : received key value with
      | error err => exact ⟨err, rfl⟩
      | ok new => exact absurd (readable_iff.mpr ⟨new, hreceived⟩) hvalue
    obtain ⟨err, herr⟩ := received_joined_error h.application hbinary hmem herr
    obtain ⟨new, hnew⟩ := readable_iff.mp h
    cases herr.symm.trans hnew
  · intro h
    obtain ⟨news, hnews⟩ := exists_news h
    obtain ⟨value, hmem⟩ := List.exists_mem_of_ne_nil values hne
    exact readable_iff.mpr ⟨_, received_joined (h value hmem).application hbinary hne hnews⟩

theorem append_accepts (h : (append key value).run m = .ok () m') :
    isApplicationKey key = true ∧ (isBinaryKey key = true ∨ isValidAsciiValue value = true) := by
  unfold append at h
  split at h
  · cases h
  rename_i hkey
  split at h
  · cases h
  rename_i hvalue
  refine ⟨by simpa using hkey, ?_⟩
  cases hbinary : isBinaryKey key with
  | true => exact .inl rfl
  | false => exact .inr (by simpa [hbinary] using hvalue)

theorem appendDecoded_binary {result : IncomingResult} (hbinary : isBinaryKey key = true)
    (h : (appendDecoded key value).run m = .ok result m') : result = .appended := by
  have hspec : wp (appendDecoded key value) (fun result _ => result = .appended)
    (fun _ _ => True) m := by
    unfold appendDecoded
    split
    · trivial
    simp only [hbinary, Bool.not_true, Bool.false_eq_true, if_false, wp_bind, wp_get, wp_pure]
    refine wp_of_forall (fun values m₁ => ?_) fun _ _ => trivial
    exact wp_of_forall (fun _ _ => trivial) fun _ _ => trivial
  change (appendDecoded key value) m = _ at h
  unfold wp at hspec
  rw [h] at hspec
  exact hspec

/-- An entry that `append` accepts is read back from its field.  A field of one or more binary
values is read as the values one by one if each can be read; if it is not read, because of a value
or of an allocation, the container is as before.  A field that is read is charged for the entries
that it adds, as long as the sum is a machine word. -/
theorem metadata_codec :
    (∀ key value m₀ m₁, (append key value).run m₀ = .ok () m₁ → ∀ m,
      wp (appendDecoded key (encodeOutboundValue key value))
        (fun result m' => result = .appended ∧ m'.entries = m.entries ++ [⟨key, value⟩])
        (fun _ m' => m'.entries = m.entries ∧ m.allocator ≠ []) m) ∧
    (∀ key, isBinaryKey key = true → ∀ values : List Bytes, values ≠ [] →
      ((∀ value ∈ values, Readable key value) → ∀ entries,
        ∃ m', (appendDecoded key (joined values)).run ⟨[], entries⟩ = .ok .appended m' ∧
          (appendEach key values).run ⟨[], entries⟩ = .ok () m') ∧
      ∀ m, wp (appendDecoded key (joined values))
        (fun _ _ => ∀ value ∈ values, Readable key value) (fun _ m' => m'.entries = m.entries) m) ∧
    ∀ key value m, wp (appendDecoded key value)
      (fun result m' => ∃ new, m'.entries = m.entries ++ new ∧ (result = .discarded ↔ new = []) ∧
        Client.retainedMetadataFieldSize key value = checked (charge new))
      (fun _ m' => m'.entries = m.entries) m := by
  refine ⟨?_, ?_, ?_⟩
  · intro key value m₀ m₁ haccepted m
    obtain ⟨hkey, hvalue⟩ := append_accepts haccepted
    have hreceived := received_encodeOutboundValue hkey hvalue
    refine wp_mono (appendDecoded_spec key (encodeOutboundValue key value) m) ?_ ?_
    · rintro result m' ⟨new, hnew, hentries, hresult, -⟩
      obtain rfl : [⟨key, value⟩] = new := Except.ok.inj (hreceived.symm.trans hnew)
      refine ⟨?_, hentries⟩
      cases result with
      | appended => rfl
      | discarded => cases hresult.mp rfl
    · rintro err m' ⟨hfault | herr, hentries, -⟩
      · exact ⟨hentries, hfault.2⟩
      · cases hreceived.symm.trans herr
  · intro key hbinary values hne
    refine ⟨fun hread entries => ?_, fun m => ?_⟩
    · obtain ⟨news, hnews⟩ := exists_news hread
      obtain ⟨value, hmem⟩ := List.exists_mem_of_ne_nil values hne
      have hjoined := received_joined (hread value hmem).application hbinary hne hnews
      obtain ⟨result, hrun⟩ := appendDecoded_reads entries hjoined
      have happended : result = .appended := appendDecoded_binary hbinary hrun
      exact ⟨_, happended ▸ hrun, appendEach_run entries hnews⟩
    · refine wp_mono (appendDecoded_spec key (joined values) m) ?_ fun _ _ h => h.2.1
      rintro result m' ⟨new, hnew, -⟩
      exact (readable_joined hbinary hne).mp (readable_iff.mpr ⟨new, hnew⟩)
  · intro key value m
    refine wp_mono (appendDecoded_spec key value m) ?_ fun _ _ h => h.2.1
    rintro result m' ⟨new, hnew, hentries, hresult, -⟩
    exact ⟨new, hentries, hresult, retainedMetadataFieldSize_eq hnew⟩

/-- The encodings of `[1]`, padded, and of `[2]`, not padded, in one field. -/
theorem metadata_codec_two : ∃ m',
    (appendDecoded (ascii "a-bin") (joined [ascii "AQ==", ascii "Ag"])).run ⟨[], []⟩ =
      .ok .appended m' ∧
    (appendEach (ascii "a-bin") [ascii "AQ==", ascii "Ag"]).run ⟨[], []⟩ = .ok () m' := by
  refine (metadata_codec.2.1 (ascii "a-bin") (by decide) _ (List.cons_ne_nil _ _)).1 ?_ []
  have hfirst : Readable (ascii "a-bin") (ascii "AQ==") := ⟨.appended, _, rfl⟩
  have hsecond : Readable (ascii "a-bin") (ascii "Ag") := ⟨.appended, _, rfl⟩
  simp [hfirst, hsecond]

/-- The field of no values is the empty field, which is one empty value. -/
theorem appendDecoded_joined_nil :
    (appendDecoded (ascii "a-bin") (joined [])).run {} =
      .ok .appended ⟨[], [⟨ascii "a-bin", []⟩]⟩ ∧
    (appendEach (ascii "a-bin") []).run {} = .ok () {} :=
  ⟨rfl, rfl⟩

end GrpcLite.Metadata
