import GrpcLite.Wire.Base64
import Mathlib.Algebra.Order.BigOperators.Group.List
import Mathlib.Data.Finset.Lattice.Fold
import Mathlib.Data.List.GetD
import Mathlib.Data.Nat.Find
import Mathlib.Order.Lattice.Nat

/-!
# The names of generated methods

The generator of the C++ stubs appends underscores to the name of a method until it is free in its
scope.  `methodSuffix` finds their number by a search that asks for the suffixes of all earlier
methods; `fuel` bounds both, and a result of `none` is a search that has not ended.
-/

namespace GrpcLite.Naming

def underscore : UInt8 := 95

def keywords : List Bytes :=
  ["alignas", "alignof", "and", "and_eq", "asm", "auto", "bitand", "bitor", "bool", "break",
    "case", "catch", "char", "char8_t", "char16_t", "char32_t", "class", "compl",
    "concept", "const",
    "consteval", "constexpr", "constinit", "const_cast", "continue", "co_await", "co_return",
    "co_yield", "decltype", "default", "delete", "do", "double", "dynamic_cast", "else", "enum",
    "explicit", "export", "extern", "false", "float", "for", "friend", "goto", "if",
    "inline", "int",
    "long", "mutable", "namespace", "new", "noexcept", "not", "not_eq", "nullptr", "operator", "or",
    "or_eq", "private", "protected", "public", "register", "reinterpret_cast", "requires", "return",
    "short", "signed", "sizeof", "static", "static_assert", "static_cast", "struct", "switch",
    "template", "this", "thread_local", "throw", "true", "try", "typedef", "typeid", "typename",
    "union", "unsigned", "using", "virtual", "void", "volatile", "wchar_t", "while", "xor",
    "xor_eq"].map ascii

def isCppKeyword (identifier : Bytes) : Bool := keywords.contains identifier

inductive MethodScope where
  | stub
  | event
  | synchronous
  deriving DecidableEq, Repr

def renderedIdentifierLen (identifier : Bytes) (suffix : ℕ) : ℕ :=
  identifier.length + (isCppKeyword identifier).toNat + suffix

def renderedIdentifierByte (identifier : Bytes) (index : ℕ) : UInt8 :=
  identifier.getD index underscore

def renderedIdentifierEquals (identifier : Bytes) (suffix : ℕ) (value : Bytes) : Bool :=
  renderedIdentifierLen identifier suffix == value.length &&
    (List.range value.length).all fun index =>
      renderedIdentifierByte identifier index == value.getD index underscore

def renderedIdentifiersEqual (first : Bytes) (firstSuffix : ℕ) (second : Bytes)
    (secondSuffix : ℕ) : Bool :=
  renderedIdentifierLen first firstSuffix == renderedIdentifierLen second secondSuffix &&
    (List.range (renderedIdentifierLen first firstSuffix)).all fun index =>
      renderedIdentifierByte first index == renderedIdentifierByte second index

def reserved : MethodScope → List Bytes
  | .stub => [ascii "StubInterface", ascii "Stub"]
  | .event => [ascii "EventService", ascii "Register"]
  | .synchronous => [ascii "Service", ascii "CreateEventService"]

def registration (index : ℕ) : Bytes := ascii s!"grpc_lite_registration_{index}_"

def methodCollidesWithReserved (names : List Bytes) (identifier : Bytes) (suffix : ℕ)
    (scope : MethodScope) : Bool :=
  (reserved scope).any (renderedIdentifierEquals identifier suffix) ||
    scope == .event && (List.range names.length).any fun index =>
      renderedIdentifierEquals identifier suffix (registration index)

/-- The loop over the earlier methods, from `index` on; `some true` is its `break`. -/
def collidesWithPrevious (suffixOf : ℕ → Option ℕ) (identifier : Bytes) (suffix : ℕ) :
    List Bytes → ℕ → Option Bool
  | [], _ => some false
  | previous :: rest, index =>
    let candidateLen := renderedIdentifierLen identifier suffix
    let baseLen := renderedIdentifierLen previous 0
    if candidateLen < baseLen ∨
        !renderedIdentifiersEqual identifier suffix previous (candidateLen - baseLen) then
      collidesWithPrevious suffixOf identifier suffix rest (index + 1)
    else
      match suffixOf index with
      | none => none
      | some previousSuffix =>
        if candidateLen - baseLen = previousSuffix then some true
        else collidesWithPrevious suffixOf identifier suffix rest (index + 1)

def searchSuffix (collides : ℕ → Option Bool) : ℕ → ℕ → Option ℕ
  | 0, _ => none
  | fuel + 1, suffix =>
    match collides suffix with
    | none => none
    | some true => searchSuffix collides fuel (suffix + 1)
    | some false => some suffix

def methodSuffix (names : List Bytes) (scope : MethodScope) : ℕ → ℕ → Option ℕ
  | 0, _ => none
  | fuel + 1, index =>
    let identifier := names.getD index []
    searchSuffix (fun suffix =>
      if methodCollidesWithReserved names identifier suffix scope then some true
      else collidesWithPrevious (methodSuffix names scope fuel) identifier suffix
        (names.take index) 0) (fuel + 1) 0

def writeIdentifier (identifier : Bytes) : Bytes :=
  identifier ++ if isCppKeyword identifier then [underscore] else []

def writeMethodIdentifier (fuel : ℕ) (names : List Bytes) (scope : MethodScope)
    (identifier : Bytes) : Option Bytes :=
  (methodSuffix names scope fuel (names.idxOf identifier)).map fun suffix =>
    writeIdentifier identifier ++ List.replicate suffix underscore

/-! ## What is rendered -/

def rendered (identifier : Bytes) (suffix : ℕ) : Bytes :=
  writeIdentifier identifier ++ List.replicate suffix underscore

theorem rendered_eq (identifier : Bytes) (suffix : ℕ) : rendered identifier suffix =
    identifier ++ List.replicate ((isCppKeyword identifier).toNat + suffix) underscore := by
  unfold rendered writeIdentifier
  cases isCppKeyword identifier <;> simp [Nat.add_comm 1, List.replicate_succ]

theorem length_rendered (identifier : Bytes) (suffix : ℕ) :
    (rendered identifier suffix).length = renderedIdentifierLen identifier suffix := by
  simp [rendered_eq, renderedIdentifierLen, Nat.add_assoc]

theorem getD_rendered (identifier : Bytes) (suffix index : ℕ) :
    (rendered identifier suffix).getD index underscore = renderedIdentifierByte identifier
      index := by
  rw [rendered_eq, renderedIdentifierByte]
  rcases Nat.lt_or_ge index identifier.length with hlt | hge
  · rw [List.getD_append _ _ _ _ hlt]
  · rw [List.getD_append_right _ _ _ _ hge, List.getD_eq_default _ _ hge,
      List.getD_eq_getElem?_getD,
      List.getElem?_getD_replicate_default_eq]

theorem eq_of_getD {a b : Bytes} (hlength : a.length = b.length)
    (hbytes : ∀ i < a.length, a.getD i underscore = b.getD i underscore) : a = b := by
  refine List.ext_getElem hlength fun i ha hb => ?_
  simpa [List.getD_eq_getElem, ha, hb] using hbytes i ha

theorem renderedIdentifierEquals_iff {identifier value : Bytes} {suffix : ℕ} :
    renderedIdentifierEquals identifier suffix value = true ↔ rendered identifier suffix =
      value := by
  unfold renderedIdentifierEquals
  simp only [Bool.and_eq_true, beq_iff_eq, List.all_eq_true, List.mem_range,
    ← length_rendered, ← getD_rendered identifier suffix]
  constructor
  · rintro ⟨hlength, hbytes⟩
    exact eq_of_getD hlength fun i hi => hbytes i (hlength ▸ hi)
  · rintro rfl
    simp

theorem renderedIdentifiersEqual_iff {first second : Bytes} {firstSuffix secondSuffix : ℕ} :
    renderedIdentifiersEqual first firstSuffix second secondSuffix = true ↔
      rendered first firstSuffix = rendered second secondSuffix := by
  unfold renderedIdentifiersEqual
  simp only [Bool.and_eq_true, beq_iff_eq, List.all_eq_true, List.mem_range, ← length_rendered,
    ← getD_rendered first firstSuffix, ← getD_rendered second secondSuffix]
  constructor
  · rintro ⟨hlength, hbytes⟩
    exact eq_of_getD hlength hbytes
  · intro heq
    simp [heq]

theorem getLast_keyword : ∀ keyword ∈ keywords, keyword.getLast? ≠ some underscore := by decide

theorem isCppKeyword_rendered (identifier : Bytes) (suffix : ℕ) :
    isCppKeyword (rendered identifier suffix) = false := by
  by_contra hkeyword
  rw [Bool.not_eq_false, rendered_eq] at hkeyword
  cases hcount : (isCppKeyword identifier).toNat + suffix with
  | zero =>
    have hplain : isCppKeyword identifier = false := by
      by_contra hyes
      simp [hyes] at hcount
    rw [hcount, List.replicate_zero, List.append_nil, hplain] at hkeyword
    cases hkeyword
  | succ =>
    rw [hcount] at hkeyword
    refine getLast_keyword _ (by simpa [isCppKeyword] using hkeyword) ?_
    rw [List.replicate_succ', ← List.append_assoc, List.getLast?_concat]

/-! ## The smallest free suffix -/

section Search

variable (names : List Bytes) (scope : MethodScope)

/-- The reserved and the registration identifiers of a scope. -/
def forbidden : List Bytes :=
  reserved scope ++ if scope = .event then (List.range names.length).map registration else []

theorem methodCollidesWithReserved_eq (identifier : Bytes) (suffix : ℕ) :
    methodCollidesWithReserved names identifier suffix scope =
      decide (rendered identifier suffix ∈ forbidden names scope) := by
  rw [Bool.eq_iff_iff, decide_eq_true_iff]
  unfold methodCollidesWithReserved forbidden
  simp only [Bool.or_eq_true, Bool.and_eq_true, List.any_eq_true, renderedIdentifierEquals_iff,
    List.mem_append, exists_eq_right', beq_iff_eq, List.mem_range]
  split
  · next hevent => simp [hevent, @eq_comm _ (registration _)]
  · next hother => simp [hother]

theorem exists_free (identifier : Bytes) (taken : List Bytes) :
    ∃ suffix, rendered identifier suffix ∉ taken := by
  refine ⟨(taken.map List.length).sum + 1, fun hmem => ?_⟩
  have hle := List.le_sum_of_mem (List.mem_map_of_mem (f := List.length) hmem)
  rw [length_rendered, renderedIdentifierLen] at hle
  omega

/-- The smallest suffix that makes a name none of the taken ones. -/
def smallest (identifier : Bytes) (taken : List Bytes) : ℕ :=
  Nat.find (exists_free identifier taken)

/-- The identifiers of the first methods, each with the smallest suffix. -/
def identifiers : ℕ → List Bytes
  | 0 => []
  | index + 1 =>
    let taken := forbidden names scope ++ identifiers index
    identifiers index ++
      [rendered (names.getD index []) (smallest (names.getD index []) taken)]

def suffixAt (index : ℕ) : ℕ :=
  smallest (names.getD index []) (forbidden names scope ++ identifiers names scope index)

theorem identifiers_eq (index : ℕ) (hindex : index ≤ names.length) :
    identifiers names scope index =
      (names.take index).mapIdx fun j name => rendered name (suffixAt names scope j) := by
  induction index with
  | zero => rfl
  | succ index ih =>
    have hlt : index < names.length := hindex
    rw [List.take_add_one, List.getElem?_eq_getElem hlt, Option.toList_some, List.mapIdx_concat,
      ← ih (Nat.le_of_lt hlt), List.length_take, Nat.min_eq_left (Nat.le_of_lt hlt)]
    simp [identifiers, suffixAt, hlt]

theorem collidesWithPrevious_eq (suffixOf : ℕ → Option ℕ) (suffixes : ℕ → ℕ) (identifier : Bytes)
    (suffix : ℕ) (previous : List Bytes) (start : ℕ)
    (hsuffix : ∀ j < previous.length, suffixOf (start + j) = some (suffixes (start + j))) :
    collidesWithPrevious suffixOf identifier suffix previous start =
      some (decide (rendered identifier suffix ∈
        previous.mapIdx fun j name => rendered name (suffixes (start + j)))) := by
  induction previous generalizing start with
  | nil => simp [collidesWithPrevious]
  | cons name rest ih =>
    have hrest := ih (start + 1) fun j hj => by
      simpa [Nat.add_assoc, Nat.add_comm 1] using hsuffix (j + 1) (by simpa using hj)
    have hfirst : suffixOf start = some (suffixes start) := hsuffix 0 (by simp)
    have hshift : (rest.mapIdx fun j name => rendered name (suffixes (start + (j + 1)))) =
        rest.mapIdx fun j name => rendered name (suffixes (start + 1 + j)) := by
      simp only [Nat.add_assoc, Nat.add_comm 1]
    -- an equal rendering fixes the suffix of the earlier method by its length
    have hsame : rendered identifier suffix = rendered name (suffixes start) ↔
        ¬ (renderedIdentifierLen identifier suffix < renderedIdentifierLen name 0 ∨
          (!renderedIdentifiersEqual identifier suffix name
            (renderedIdentifierLen identifier suffix - renderedIdentifierLen name 0)) = true) ∧
        renderedIdentifierLen identifier suffix - renderedIdentifierLen name 0 =
          suffixes start := by
      rw [Bool.not_eq_true', Bool.eq_false_iff, Ne, renderedIdentifiersEqual_iff]
      have hlength (h : rendered identifier suffix = rendered name (suffixes start)) :
          renderedIdentifierLen identifier suffix = renderedIdentifierLen name 0 +
            suffixes start := by
        rw [← length_rendered, h, length_rendered, renderedIdentifierLen, renderedIdentifierLen]
        omega
      constructor
      · intro h
        have := hlength h
        rw [show renderedIdentifierLen identifier suffix - renderedIdentifierLen name 0 =
          suffixes start by omega]
        exact ⟨by simp [h]; omega, rfl⟩
      · rintro ⟨hnot, heq⟩
        rw [heq] at hnot
        simpa using (not_or.1 hnot).2
    simp only [collidesWithPrevious, hfirst, List.mapIdx_cons, List.mem_cons, Nat.add_zero, hshift,
      hrest, hsame]
    split
    · next hskip => simp only [hskip, not_true_eq_false, false_and, false_or]
    · next hkeep =>
      split
      · next hequal => exact congrArg some (decide_eq_true (.inl ⟨hkeep, hequal⟩)).symm
      · next hdiffer => simp only [hdiffer, and_false, false_or]

theorem searchSuffix_eq {collides : ℕ → Option Bool} {identifier : Bytes} {taken : List Bytes}
    (hcollides : ∀ suffix, collides suffix = some (decide (rendered identifier suffix ∈ taken)))
    {fuel start : ℕ} (hstart : start ≤ smallest identifier taken)
    (hfuel : smallest identifier taken < start + fuel) :
    searchSuffix collides fuel start = some (smallest identifier taken) := by
  induction fuel generalizing start with
  | zero => omega
  | succ fuel ih =>
    rw [searchSuffix, hcollides]
    rcases Nat.eq_or_lt_of_le hstart with heq | hlt
    · have hfree : rendered identifier start ∉ taken := heq ▸ Nat.find_spec (exists_free _ _)
      rw [decide_eq_false hfree]
      exact congrArg some heq
    · have htaken : rendered identifier start ∈ taken :=
        not_not.1 (Nat.find_min (exists_free identifier taken) hlt)
      simp only [htaken, decide_true]
      exact ih hlt (by omega)

/-- With enough fuel the search finds the smallest suffix that the identifiers of the earlier
methods leave. -/
theorem methodSuffix_eq {bound : ℕ} (hbound : ∀ j < names.length, suffixAt names scope j < bound)
    {fuel index : ℕ} (hindex : index < names.length) (hfuel : index + bound < fuel) :
    methodSuffix names scope fuel index = some (suffixAt names scope index) := by
  induction fuel generalizing index with
  | zero => omega
  | succ fuel ih =>
    have hle : index ≤ names.length := Nat.le_of_lt hindex
    have hlength : (names.take index).length = index := by simp [hle]
    refine searchSuffix_eq (fun suffix => ?_) (Nat.zero_le _) ?_
    · have hprevious := collidesWithPrevious_eq (methodSuffix names scope fuel)
        (suffixAt names scope) (names.getD index []) suffix (names.take index) 0 fun j hj => by
          rw [Nat.zero_add, ih (by omega) (by omega)]
      simp only [Nat.zero_add, ← identifiers_eq names scope index hle] at hprevious
      rw [methodCollidesWithReserved_eq, hprevious]
      split <;> simp_all
    · have := hbound index hindex
      unfold suffixAt at this
      omega

theorem rendered_suffixAt_not_mem (index : ℕ) :
    rendered (names.getD index []) (suffixAt names scope index) ∉
      forbidden names scope ++ identifiers names scope index :=
  Nat.find_spec (exists_free _ _)

theorem nodup_identifiers (index : ℕ) : (identifiers names scope index).Nodup ∧
    ∀ identifier ∈ identifiers names scope index, identifier ∉ forbidden names scope := by
  induction index with
  | zero => exact ⟨List.nodup_nil, nofun⟩
  | succ index ih =>
    have hnew := rendered_suffixAt_not_mem names scope index
    rw [List.mem_append, not_or] at hnew
    have hconcat : identifiers names scope (index + 1) = identifiers names scope index ++
        [rendered (names.getD index []) (suffixAt names scope index)] := rfl
    rw [hconcat]
    refine ⟨List.nodup_append.2 ⟨ih.1, List.nodup_singleton _, ?_⟩, fun identifier hmem => ?_⟩
    · rintro a ha b hb rfl
      exact hnew.2 (List.mem_singleton.1 hb ▸ ha)
    · rcases List.mem_append.1 hmem with hmem | hmem
      · exact ih.2 identifier hmem
      · exact List.mem_singleton.1 hmem ▸ hnew.1

theorem mem_identifiers {index : ℕ} {value : Bytes} : value ∈ identifiers names scope index ↔
    ∃ j < index, rendered (names.getD j []) (suffixAt names scope j) = value := by
  induction index with
  | zero => simp [identifiers]
  | succ index ih =>
    rw [identifiers, List.mem_append, ih, List.mem_singleton, Nat.exists_lt_succ_right]
    exact or_congr_right eq_comm

def enough : ℕ :=
  names.length + ((Finset.range names.length).sup (suffixAt names scope) + 1) + 1

theorem methodSuffix_of_enough {fuel index : ℕ} (hfuel : enough names scope ≤ fuel)
    (hindex : index < names.length) :
    methodSuffix names scope fuel index = some (suffixAt names scope index) := by
  unfold enough at hfuel
  exact methodSuffix_eq names scope
    (fun j hj => Nat.lt_succ_of_le (Finset.le_sup (Finset.mem_range.2 hj))) hindex (by omega)

theorem writeMethodIdentifier_of_enough (hdistinct : names.Nodup) {fuel : ℕ}
    (hfuel : enough names scope ≤ fuel) : names.map (writeMethodIdentifier fuel names scope) =
      (identifiers names scope names.length).map some := by
  have hwritten := identifiers_eq names scope names.length le_rfl
  rw [List.take_length] at hwritten
  rw [hwritten]
  refine List.ext_getElem (by simp) fun index h₁ h₂ => ?_
  have hindex : index < names.length := by simpa using h₁
  simp [writeMethodIdentifier, hdistinct.idxOf_getElem,
    methodSuffix_of_enough names scope hfuel hindex, rendered]

end Search

/-- In every scope the names of the methods of a service are distinct, free and no keywords, and
each has as few underscores as the earlier ones allow. -/
theorem method_names_distinct (names : List Bytes) (hdistinct : names.Nodup) (scope : MethodScope) :
    ∃ (written : List Bytes) (enough : ℕ),
      (∀ fuel, enough ≤ fuel →
        names.map (writeMethodIdentifier fuel names scope) = written.map some) ∧
      written.Nodup ∧
      (∀ identifier ∈ written,
        identifier ∉ forbidden names scope ∧ isCppKeyword identifier = false) ∧
      ∀ index (hindex : index < names.length), ∃ suffix,
        (∀ fuel, enough ≤ fuel → methodSuffix names scope fuel index = some suffix) ∧
        ∀ smaller < suffix, rendered names[index] smaller ∈ forbidden names scope ∨
          ∃ earlier < index, written[earlier]? = some (rendered names[index] smaller) := by
  have hwritten := identifiers_eq names scope names.length le_rfl
  rw [List.take_length] at hwritten
  have hfree := nodup_identifiers names scope names.length
  refine ⟨identifiers names scope names.length, enough names scope,
    fun fuel hfuel => writeMethodIdentifier_of_enough names scope hdistinct hfuel,
    hfree.1, fun identifier hmem => ⟨hfree.2 identifier hmem, ?_⟩, fun index hindex =>
      ⟨suffixAt names scope index, fun fuel hfuel =>
        methodSuffix_of_enough names scope hfuel hindex,
        fun smaller hsmaller => ?_⟩⟩
  · obtain ⟨index, -, rfl⟩ := (mem_identifiers names scope).1 hmem
    exact isCppKeyword_rendered _ _
  · have htaken := not_not.1 (Nat.find_min (exists_free _ _) hsmaller)
    rw [List.getD_eq_getElem _ _ hindex, List.mem_append] at htaken
    refine htaken.imp_right fun hearlier => ?_
    obtain ⟨earlier, hlt, heq⟩ := (mem_identifiers names scope).1 hearlier
    refine ⟨earlier, hlt, ?_⟩
    have hlength : earlier < names.length := hlt.trans hindex
    rw [hwritten, List.getElem?_mapIdx, List.getElem?_eq_getElem hlength, ← heq,
      List.getD_eq_getElem _ _ hlength]
    rfl

def keywordNames : List Bytes := [ascii "delete", ascii "delete_"]

theorem method_names_distinct_keywordNames :
    keywordNames.map (writeMethodIdentifier 9 keywordNames .stub) =
      [some (ascii "delete_"), some (ascii "delete__")] ∧
    ∃ written : List Bytes, written.Nodup ∧ ∃ enough, ∀ fuel, enough ≤ fuel →
      keywordNames.map (writeMethodIdentifier fuel keywordNames .stub) = written.map some := by
  obtain ⟨written, enough, hwritten, hnodup, -⟩ :=
    method_names_distinct keywordNames (by decide) .stub
  exact ⟨by decide, written, hnodup, enough, hwritten⟩

end GrpcLite.Naming
