import GrpcLite.Generator.Naming

/-!
# The members of generated classes

For a service the generator writes the classes `StubInterface`, `Stub`, `EventService` and `Service`
and, inside `CreateEventService`, a local class `Adapter`.  The names that methods must avoid are
kept by hand in `methodCollidesWithReserved`.
-/

namespace GrpcLite.Naming

inductive Member where
  | destructor (name : Bytes)
  | constructor (name : Bytes)
  | function (name : Bytes)
  | data (name : Bytes)

def Member.name : Member → Bytes
  | .destructor name | .constructor name | .function name | .data name => name

/-- A class as it is written: `methods` are the methods of the service. -/
structure Class where
  name : Bytes
  before : List Member
  methods : List Bytes
  after : List Member

/-- No method has the name of the class or of another member. -/
def Class.WellFormed (c : Class) : Prop :=
  ∀ identifier ∈ c.methods, identifier ≠ c.name ∧
    ∀ member ∈ c.before ++ c.after, identifier ≠ member.name

/-- The classes of `renderServiceDeclaration`, then the one of `renderServiceDefinition`;
`written scope` are the identifiers that `writeMethodIdentifier` writes for the methods. -/
def generatedClasses (written : MethodScope → List Bytes) (names : List Bytes) : List Class :=
  [⟨ascii "StubInterface", [.destructor (ascii "~StubInterface")], written .stub, []⟩,
    ⟨ascii "Stub", [.constructor (ascii "Stub")], written .stub, [.data (ascii "channel_")]⟩,
    ⟨ascii "EventService", [.destructor (ascii "~EventService"), .function (ascii "Register")],
      written .event, names.map fun name => .data (registration (names.idxOf name))⟩,
    ⟨ascii "Service", [.destructor (ascii "~Service")], written .synchronous,
      [.function (ascii "CreateEventService")]⟩,
    ⟨ascii "Adapter", [.constructor (ascii "Adapter")], written .event,
      [.data (ascii "service_"), .data (ascii "executor_"), .data (ascii "options_")]⟩]

/-- The members of `Stub` and `Adapter` that no list reserves. -/
def unreserved : List Bytes :=
  ["channel_", "Adapter", "service_", "executor_", "options_"].map ascii

def isIdentifier (name : Bytes) : Bool :=
  name.all fun byte => byte = underscore || 48 ≤ byte && byte ≤ 57 || 65 ≤ byte && byte ≤ 90 ||
    97 ≤ byte && byte ≤ 122

/-! ## Which names are written -/

section Written

variable {names : List Bytes} {scope : MethodScope} {base value : Bytes} {count : ℕ}

def padded (base : Bytes) (count : ℕ) : Bytes := base ++ List.replicate count underscore

theorem eq_padded (hlast : base.getLast? ≠ some underscore) {name : Bytes} {suffix : ℕ}
    (h : padded name suffix = padded base count) :
    ∃ rest, name = padded base rest ∧ rest + suffix = count := by
  induction suffix generalizing count with
  | zero => exact ⟨count, by simpa [padded] using h, rfl⟩
  | succ suffix ih =>
    cases count with
    | zero =>
      simp only [padded, List.replicate_succ', ← List.append_assoc, List.replicate_zero,
        List.append_nil] at h
      exact absurd (h ▸ List.getLast?_concat) hlast
    | succ =>
      simp only [padded, List.replicate_succ', ← List.append_assoc, List.append_left_inj] at h
      obtain ⟨rest, hname, hsum⟩ := ih h
      exact ⟨rest, hname, congrArg (· + 1) hsum⟩

/-- Neither the name nor one with fewer underscores is reserved or a keyword. -/
def Free (names : List Bytes) (scope : MethodScope) (base : Bytes) (count : ℕ) : Prop :=
  ∀ rest ≤ count,
    padded base rest ∉ forbidden names scope ∧ isCppKeyword (padded base rest) = false

theorem eq_padded_of_rendered (hlast : base.getLast? ≠ some underscore)
    (hfree : Free names scope base count) {name : Bytes} {suffix : ℕ}
    (h : rendered name suffix = padded base count) :
    ∃ rest, name = padded base rest ∧ rest + suffix = count := by
  rw [rendered_eq] at h
  obtain ⟨rest, rfl, hsum⟩ := eq_padded hlast h
  rw [(hfree rest (by omega)).2, Bool.toNat_false, Nat.zero_add] at hsum
  exact ⟨rest, rfl, hsum⟩

theorem suffixAt_eq_zero (hdistinct : names.Nodup) (hlast : base.getLast? ≠ some underscore)
    (hfree : Free names scope base count) {index : ℕ} (hindex : index < names.length)
    (hname : names[index] = padded base count) : suffixAt names scope index = 0 := by
  induction count using Nat.strong_induction_on generalizing index with
  | _ count ih =>
    rw [suffixAt, smallest, Nat.find_eq_zero, List.getD_eq_getElem _ _ hindex, hname, rendered_eq,
      (hfree count le_rfl).2, Bool.toNat_false, Nat.zero_add, List.replicate_zero, List.append_nil]
    refine List.not_mem_append (hfree count le_rfl).1 fun hmem => ?_
    obtain ⟨earlier, hlt, heq⟩ := (mem_identifiers names scope).1 hmem
    rw [List.getD_eq_getElem _ _ (hlt.trans hindex)] at heq
    obtain ⟨rest, hrest, hsum⟩ := eq_padded_of_rendered hlast hfree heq
    -- the earlier name has fewer underscores, so it is rendered as it is
    rcases Nat.eq_or_lt_of_le (Nat.le.intro hsum) with rfl | hless
    · exact hlt.ne (hdistinct.getElem_inj_iff.1 (hrest.trans hname.symm))
    · have := ih rest hless (fun j hj => hfree j (hj.trans hless.le)) (hlt.trans hindex) hrest
      omega

theorem mem_identifiers_iff (base : Bytes) (count : ℕ) (hdistinct : names.Nodup)
    (hlast : base.getLast? ≠ some underscore) (hfree : Free names scope base count) :
    padded base count ∈ identifiers names scope names.length ↔ padded base count ∈ names := by
  rw [mem_identifiers, List.mem_iff_getElem]
  constructor
  · rintro ⟨index, hindex, heq⟩
    rw [List.getD_eq_getElem _ _ hindex] at heq
    obtain ⟨rest, hrest, rfl⟩ := eq_padded_of_rendered hlast hfree heq
    have hzero := suffixAt_eq_zero hdistinct hlast
      (fun j hj => hfree j (hj.trans (Nat.le_add_right _ _))) hindex hrest
    exact ⟨index, hindex, by rw [hzero, hrest, Nat.add_zero]⟩
  · rintro ⟨index, hindex, hname⟩
    refine ⟨index, hindex, ?_⟩
    rw [suffixAt_eq_zero hdistinct hlast hfree hindex hname, List.getD_eq_getElem _ _ hindex, hname,
      rendered_eq, (hfree count le_rfl).2]
    exact List.append_nil _

/-- A registration begins with a `g`. -/
theorem not_mem_forbidden_event (hreserved : value ∉ reserved .event)
    (hhead : value.head? ≠ some 103) : value ∉ forbidden names .event := by
  refine List.not_mem_append hreserved ?_
  rw [if_pos rfl, List.mem_map]
  rintro ⟨index, -, rfl⟩
  refine hhead ?_
  simp only [registration, ascii, String.toList_append, List.map_append, List.head?_append]
  rfl

theorem ne_tilde_of_mem_identifiers (hnames : ∀ name ∈ names, isIdentifier name)
    (hmem : value ∈ identifiers names scope names.length) (rest : Bytes) : value ≠ 126 :: rest := by
  obtain ⟨index, hindex, rfl⟩ := (mem_identifiers names scope).1 hmem
  rw [List.getD_eq_getElem _ _ hindex, rendered_eq]
  intro heq
  have hbyte := hnames _ (List.getElem_mem hindex)
  cases hname : names[index] with
  | nil =>
    rw [hname, List.nil_append] at heq
    have htilde : (126 : UInt8) ∈ _ := heq ▸ List.mem_cons_self
    exact absurd (List.eq_of_mem_replicate htilde) (by decide)
  | cons =>
    rw [hname] at heq hbyte
    cases (List.cons.inj heq).1
    simp [isIdentifier, underscore] at hbyte

end Written

theorem wellFormed_iff (c : Class) : c.WellFormed ↔
    c.name ∉ c.methods ∧ ∀ member ∈ c.before ++ c.after, member.name ∉ c.methods := by
  constructor
  · intro h
    exact ⟨fun hmem => (h _ hmem).1 rfl, fun member hmember hmem => (h _ hmem).2 member hmember rfl⟩
  · rintro ⟨hname, hmembers⟩ identifier hmem
    exact ⟨fun heq => hname (heq ▸ hmem), fun member hmember heq =>
      hmembers member hmember (heq ▸ hmem)⟩

/-- The classes of a service are well-formed exactly when no method is named like a member that the
reserved lists leave out. -/
theorem classes_wellFormed_iff (names : List Bytes) (hnames : ∀ name ∈ names, isIdentifier name)
    (hdistinct : names.Nodup) : ∃ (written : MethodScope → List Bytes) (enough : ℕ),
      (∀ scope fuel, enough ≤ fuel →
        names.map (writeMethodIdentifier fuel names scope) = (written scope).map some) ∧
      ((∀ c ∈ generatedClasses written names, c.WellFormed) ↔
        ∀ name ∈ names, name ∉ unreserved) := by
  refine ⟨fun scope => identifiers names scope names.length,
    enough names .stub + enough names .event + enough names .synchronous,
    fun scope fuel hfuel => writeMethodIdentifier_of_enough names scope hdistinct ?_, ?_⟩
  · cases scope <;> omega
  simp only [generatedClasses, List.forall_mem_cons, wellFormed_iff, List.cons_append,
    List.nil_append, List.forall_mem_map, Member.name, List.not_mem_nil, false_imp_iff,
    imp_true_iff,
    and_true]
  have hfree {scope value} (h : value ∈ forbidden names scope) :
      value ∉ identifiers names scope names.length := fun hmem =>
    (nodup_identifiers names scope names.length).2 value hmem h
  have hreserved {scope value} (h : value ∈ reserved scope) :
      value ∉ identifiers names scope names.length := hfree (List.mem_append_left _ h)
  have htilde {scope rest} : 126 :: rest ∉ identifiers names scope names.length := fun hmem =>
    ne_tilde_of_mem_identifiers hnames hmem rest rfl
  have hchannel : _ ∈ identifiers names .stub names.length ↔ _ :=
    mem_identifiers_iff (ascii "channel") 1 hdistinct (by decide)
      (show ∀ rest ≤ 1, padded _ rest ∉ reserved .stub ∧ _ by decide)
  have hevent (base count) (hlast : base.getLast? ≠ some underscore)
      (hfree : ∀ rest ≤ count, (padded base rest ∉ reserved .event ∧
        (padded base rest).head? ≠ some 103) ∧ isCppKeyword (padded base rest) = false) :
      padded base count ∈ identifiers names .event names.length ↔ padded base count ∈ names :=
    mem_identifiers_iff base count hdistinct hlast fun rest hrest =>
      (hfree rest hrest).imp_left fun h => not_mem_forbidden_event h.1 h.2
  have hadapter := hevent (ascii "Adapter") 0 (by decide) (by decide)
  have hservice := hevent (ascii "service") 1 (by decide) (by decide)
  have hexecutor := hevent (ascii "executor") 1 (by decide) (by decide)
  have hoptions := hevent (ascii "options") 1 (by decide) (by decide)
  constructor
  · rintro ⟨-, ⟨-, -, hstub⟩, -, -, hclass, -, hfields⟩ name hname hmem
    simp only [unreserved, List.map_cons, List.map_nil, List.mem_cons, List.not_mem_nil,
      or_false] at hmem
    rcases hmem with rfl | rfl | rfl | rfl | rfl
    · exact hstub (hchannel.2 hname)
    · exact hclass (hadapter.2 hname)
    · exact hfields.1 (hservice.2 hname)
    · exact hfields.2.1 (hexecutor.2 hname)
    · exact hfields.2.2 (hoptions.2 hname)
  · intro h
    have hno {value} (hvalue : value ∈ unreserved) : value ∉ names := fun hmem =>
      h value hmem hvalue
    have hclass := fun hmem => hno (by decide) (hadapter.1 hmem)
    refine ⟨⟨hreserved (by decide), htilde⟩,
      ⟨hreserved (by decide), hreserved (by decide), fun hmem => hno (by decide) (hchannel.1 hmem)⟩,
      ⟨hreserved (by decide), htilde, hreserved (by decide), fun name hname => hfree ?_⟩,
      ⟨hreserved (by decide), htilde, hreserved (by decide)⟩, hclass, hclass,
      fun hmem => hno (by decide) (hservice.1 hmem), fun hmem => hno (by decide) (hexecutor.1 hmem),
      fun hmem => hno (by decide) (hoptions.1 hmem)⟩
    exact List.mem_append_right _
      (List.mem_map_of_mem (List.mem_range.2 (List.idxOf_lt_length_of_mem hname)))

theorem classes_wellFormed_iff_open : ∃ (written : MethodScope → List Bytes) (enough : ℕ),
    (∀ scope fuel, enough ≤ fuel →
      [ascii "Open"].map (writeMethodIdentifier fuel [ascii "Open"] scope) =
        (written scope).map some) ∧
    ∀ c ∈ generatedClasses written [ascii "Open"], c.WellFormed := by
  obtain ⟨written, enough, hwritten, hiff⟩ :=
    classes_wellFormed_iff [ascii "Open"] (by decide) (by decide)
  exact ⟨written, enough, hwritten, hiff.2 (by decide)⟩

def channelNames : List Bytes := [ascii "channel_"]

theorem stub_members_collide : (∀ name ∈ channelNames, isIdentifier name) ∧ channelNames.Nodup ∧
    (∀ scope, channelNames.map (writeMethodIdentifier 2 channelNames scope) =
      channelNames.map some) ∧
    ∃ c ∈ generatedClasses (fun _ => channelNames) channelNames, ¬c.WellFormed := by
  refine ⟨by decide, by decide, fun scope => by cases scope <;> decide, _,
    List.mem_cons_of_mem _ List.mem_cons_self, fun h => ?_⟩
  exact (h (ascii "channel_") List.mem_cons_self).2 (.data (ascii "channel_")) (by simp) rfl

end GrpcLite.Naming
