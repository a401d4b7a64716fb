import GrpcLite.Lib.IndexedHeap

/-!
# The order of binary heaps with stored positions

No entry comes before its parent.  A sift repairs the order around one position: on the way up
everything but the step to the parent is in order, on the way down everything but the steps from the
children.  In both cases the children are in order with the parent of the position.
-/

namespace IndexedHeap

variable {α τ : Type}

/-! ## Entries -/

section Entries

variable {h : IndexedHeap α τ} {index : ℕ} {key : α} {x : Entry α τ}

theorem setKey_other {i : ℕ} (hne : i ≠ index) (hx : (h.setKey index key).entries[i]? = some x) :
    h.entries[i]? = some x := by
  rw [getElem?_setKey] at hx
  obtain ⟨entry, hentry, rfl⟩ := Option.map_eq_some_iff.mp hx
  rw [if_neg (Ne.symm hne)]
  exact hentry

theorem setKey_same (hx : (h.setKey index key).entries[index]? = some x) : x.key = key := by
  rw [getElem?_setKey] at hx
  obtain ⟨entry, hentry, rfl⟩ := Option.map_eq_some_iff.mp hx
  rw [if_pos rfl]

/-- `exchanged` has the entries `x` and `y` of the positions `a` and `b` exchanged. -/
structure Exchanged (entries exchanged : List (Entry α τ)) (a b : ℕ) (x y : Entry α τ) : Prop where
  fst : entries[a]? = some x
  snd : entries[b]? = some y
  fst' : exchanged[a]? = some y
  snd' : exchanged[b]? = some x
  other : ∀ i, i ≠ a → i ≠ b → exchanged[i]? = entries[i]?

variable [DecidableEq τ]

theorem length_swap (h : IndexedHeap α τ) (a b : ℕ) :
    (h.swap a b).entries.length = h.entries.length := by
  rcases h.swap_cases a b with hsame | ⟨-, x, y, -, -, hswap⟩
  · rw [hsame]
  · rw [hswap]
    simp

theorem exchanged_swap {a b : ℕ} {y : Entry α τ} (hab : a ≠ b) (hx : h.entries[a]? = some x)
    (hy : h.entries[b]? = some y) : Exchanged h.entries (h.swap a b).entries a b x y := by
  have hget := getElem?_exchange hx hy
  have hswap : (h.swap a b).entries = (h.entries.set a y).set b x := by simp [swap, hab, hx, hy]
  rw [hswap]
  constructor
  · exact hx
  · exact hy
  · rw [hget, if_neg hab, if_pos rfl]
  · rw [hget, if_pos rfl]
  · intro i hia hib
    rw [hget, if_neg hib, if_neg hia]

theorem replace_other {i : ℕ} {removed replacement : Entry α τ} (hne : i ≠ index)
    (hx : (h.replace index removed replacement).entries[i]? = some x) : h.entries[i]? = some x := by
  have hdrop : h.entries.dropLast[i]? = some x := by
    unfold IndexedHeap.replace at hx
    dsimp only at hx
    split at hx
    · rw [List.getElem?_set_ne (Ne.symm hne)] at hx
      exact hx
    · exact hx
  rw [List.getElem?_dropLast] at hdrop
  split at hdrop
  · exact hdrop
  · cases hdrop

end Entries

/-! ## Order -/

variable [LinearOrder α]

/-- The position `child` has the position `parent` above it. -/
def Below (child parent : ℕ) : Prop := child ≠ 0 ∧ (child - 1) / 2 = parent

variable {child parent : ℕ} {entries : List (Entry α τ)}

theorem Below.lt (h : Below child parent) : parent < child := by
  obtain ⟨hpositive, rfl⟩ := h
  omega

theorem Below.eq_or (h : Below child parent) :
    child = parent * 2 + 1 ∨ child = parent * 2 + 1 + 1 := by
  obtain ⟨hpositive, rfl⟩ := h
  omega

theorem below_parent (h : child ≠ 0) : Below child ((child - 1) / 2) := ⟨h, rfl⟩

theorem Below.unique {other : ℕ} (h : Below child parent) (h' : Below child other) :
    parent = other := h.2.symm.trans h'.2

/-- The entries at the two positions, if there are entries, are in order. -/
def InOrder (entries : List (Entry α τ)) (upper lower : ℕ) : Prop :=
  ∀ x y, entries[upper]? = some x → entries[lower]? = some y → x.key ≤ y.key

theorem InOrder.trans {upper middle lower : ℕ} (hupper : InOrder entries upper middle)
    (hlower : InOrder entries middle lower) (hlt : middle < lower) :
    InOrder entries upper lower := by
  intro x z hx hz
  have hmiddle : middle < entries.length := Nat.lt_trans hlt (List.getElem?_eq_some_iff.mp hz).1
  have hy := List.getElem?_eq_getElem hmiddle
  exact (hupper x _ hx hy).trans (hlower _ z hy hz)

def Ordered (entries : List (Entry α τ)) : Prop :=
  ∀ child parent, Below child parent → InOrder entries parent child

/-- The children of a position are in order with its parent. -/
def Bridged (entries : List (Entry α τ)) (index : ℕ) : Prop :=
  ∀ child parent, Below child index → Below index parent → InOrder entries parent child

/-- Only the step from `index` to its parent may be out of order. -/
structure OrderedUpTo (entries : List (Entry α τ)) (index : ℕ) : Prop where
  elsewhere : ∀ child parent, Below child parent → child ≠ index → InOrder entries parent child
  bridged : Bridged entries index

/-- Only the steps from the children of `index` may be out of order. -/
structure OrderedDownTo (entries : List (Entry α τ)) (index : ℕ) : Prop where
  elsewhere : ∀ child parent, Below child parent → parent ≠ index → InOrder entries parent child
  bridged : Bridged entries index

theorem Ordered.bridged (h : Ordered entries) (index : ℕ) : Bridged entries index := by
  intro child parent hchild hparent
  exact (h index parent hparent).trans (h child index hchild) hchild.lt

/-- The first entry is a least one. -/
theorem Ordered.first_le (h : Ordered entries) {first : Entry α τ}
    (hfirst : entries[0]? = some first) : ∀ entry ∈ entries, first.key ≤ entry.key := by
  have hroot : ∀ i, InOrder entries 0 i := by
    intro i
    induction i using Nat.strongRecOn with
    | ind i ih =>
      by_cases hzero : i = 0
      · subst hzero
        intro x y hx hy
        obtain rfl := Option.some.inj (hx.symm.trans hy)
        exact le_rfl
      · have hparent := below_parent hzero
        exact (ih _ hparent.lt).trans (h i _ hparent) hparent.lt
  intro entry hentry
  obtain ⟨i, hi⟩ := List.mem_iff_getElem?.mp hentry
  exact hroot i first entry hfirst hi

/-! ## One step of a sift -/

section Exchange

variable {entries exchanged : List (Entry α τ)}

theorem OrderedUpTo.exchange {index parent : ℕ} {above entry : Entry α τ}
    (h : OrderedUpTo entries index) (hparent : Below index parent)
    (hexchanged : Exchanged entries exchanged parent index above entry)
    (hlt : entry.key < above.key) : OrderedUpTo exchanged parent := by
  have hsibling : ∀ child, Below child parent → child ≠ index → ∀ y, entries[child]? = some y →
      above.key ≤ y.key := fun child hchild hne y hy =>
    h.elsewhere child parent hchild hne above y hexchanged.fst hy
  constructor
  · intro child upper hchild hne u l hu hl
    by_cases hindex : child = index
    · subst hindex
      obtain rfl := hchild.unique hparent
      rw [hexchanged.fst'] at hu
      rw [hexchanged.snd'] at hl
      cases hu
      cases hl
      exact hlt.le
    rw [hexchanged.other child hne hindex] at hl
    by_cases hupper : upper = parent
    · subst hupper
      rw [hexchanged.fst'] at hu
      cases hu
      exact hlt.le.trans (hsibling child hchild hindex l hl)
    by_cases hmoved : upper = index
    · subst hmoved
      rw [hexchanged.snd'] at hu
      cases hu
      exact h.bridged child parent hchild hparent above l hexchanged.fst hl
    rw [hexchanged.other upper hupper hmoved] at hu
    exact h.elsewhere child upper hchild hindex u l hu hl
  · intro child upper hchild hupper u l hu hl
    have hne := hupper.lt
    have hlow := hparent.lt
    rw [hexchanged.other upper (by omega) (by omega)] at hu
    have habove : u.key ≤ above.key :=
      h.elsewhere parent upper hupper (by omega) u above hu hexchanged.fst
    by_cases hindex : child = index
    · subst hindex
      rw [hexchanged.snd'] at hl
      cases hl
      exact habove
    rw [hexchanged.other child (Nat.ne_of_gt hchild.lt) hindex] at hl
    exact habove.trans (hsibling child hchild hindex l hl)

theorem OrderedDownTo.exchange {index child : ℕ} {entry below : Entry α τ}
    (h : OrderedDownTo entries index) (hchild : Below child index)
    (hexchanged : Exchanged entries exchanged index child entry below)
    (hleast : ∀ other y, Below other index → entries[other]? = some y → below.key ≤ y.key)
    (hlt : below.key < entry.key) : OrderedDownTo exchanged child := by
  constructor
  · intro lower upper hlower hne u l hu hl
    by_cases hindex : lower = index
    · subst hindex
      have hup := hlower.lt
      have hdown := hchild.lt
      rw [hexchanged.fst'] at hl
      rw [hexchanged.other upper (by omega) (by omega)] at hu
      cases hl
      exact h.bridged child upper hchild hlower u below hu hexchanged.snd
    by_cases hmoved : lower = child
    · subst hmoved
      obtain rfl := hlower.unique hchild
      rw [hexchanged.fst'] at hu
      rw [hexchanged.snd'] at hl
      cases hu
      cases hl
      exact hlt.le
    rw [hexchanged.other lower hindex hmoved] at hl
    by_cases hupper : upper = index
    · subst hupper
      rw [hexchanged.fst'] at hu
      cases hu
      exact hleast lower l hlower hl
    rw [hexchanged.other upper hupper hne] at hu
    exact h.elsewhere lower upper hlower hupper u l hu hl
  · intro lower upper hlower hupper u l hu hl
    obtain rfl := hupper.unique hchild
    have hdeeper := hlower.lt
    have hdown := hchild.lt
    rw [hexchanged.fst'] at hu
    rw [hexchanged.other lower (by omega) (by omega)] at hl
    cases hu
    exact h.elsewhere lower child hlower (by omega) below l hexchanged.snd hl

end Exchange

/-! ## Sifts -/

section Sift

variable {h : IndexedHeap α τ} {index : ℕ}

theorem OrderedUpTo.ordered {entries : List (Entry α τ)} (h : OrderedUpTo entries index)
    (hindex : ∀ parent, Below index parent → InOrder entries parent index) : Ordered entries := by
  intro child parent hchild
  by_cases hchanged : child = index
  · subst hchanged
    exact hindex parent hchild
  · exact h.elsewhere child parent hchild hchanged

theorem OrderedDownTo.ordered {entries : List (Entry α τ)} (h : OrderedDownTo entries index)
    (hindex : ∀ child, Below child index → InOrder entries index child) : Ordered entries := by
  intro child parent hchild
  by_cases hchanged : parent = index
  · subst hchanged
    exact hindex child hchild
  · exact h.elsewhere child parent hchild hchanged

/-- The chosen child is below the position, and no child comes before it. -/
theorem smallerChild_spec {below : Entry α τ}
    (hbelow : h.entries[h.smallerChild (index * 2 + 1)]? = some below) :
    Below (h.smallerChild (index * 2 + 1)) index ∧
      ∀ other y, Below other index → h.entries[other]? = some y → below.key ≤ y.key := by
  have hchildren : Below (index * 2 + 1) index ∧ Below (index * 2 + 1 + 1) index := by
    constructor <;> constructor <;> omega
  unfold smallerChild at hbelow ⊢
  split at hbelow
  · rename_i hl hr
    split at hbelow
    · rename_i hlt
      rw [hr] at hbelow
      cases hbelow
      rw [if_pos hlt]
      refine ⟨hchildren.2, fun other y hother hy => ?_⟩
      rcases hother.eq_or with rfl | rfl
      · rw [hl] at hy
        cases hy
        exact hlt.le
      · rw [hr] at hy
        cases hy
        exact le_rfl
    · rename_i hge
      rw [hl] at hbelow
      cases hbelow
      rw [if_neg hge]
      refine ⟨hchildren.1, fun other y hother hy => ?_⟩
      rcases hother.eq_or with rfl | rfl
      · rw [hl] at hy
        cases hy
        exact le_rfl
      · rw [hr] at hy
        cases hy
        exact not_lt.mp hge
  · rename_i hmissing
    refine ⟨hchildren.1, fun other y hother hy => ?_⟩
    rcases hother.eq_or with rfl | rfl
    · rw [hbelow] at hy
      cases hy
      exact le_rfl
    · exact absurd hy (hmissing below y hbelow)

/-- Without an entry at the chosen child there is no entry at any child. -/
theorem smallerChild_missing {other : ℕ}
    (hmissing : h.entries[h.smallerChild (index * 2 + 1)]? = none) (hother : Below other index) :
    h.entries[other]? = none := by
  have hleft : h.entries[index * 2 + 1]? = none := by
    unfold smallerChild at hmissing
    split at hmissing
    · rename_i hr
      split at hmissing
      · rw [hr] at hmissing
        cases hmissing
      · exact hmissing
    · exact hmissing
  have hlength := List.getElem?_eq_none_iff.mp hleft
  refine List.getElem?_eq_none ?_
  rcases hother.eq_or with rfl | rfl <;> omega

variable [DecidableEq τ]

theorem OrderedUpTo.siftUp {fuel : ℕ} (hordered : OrderedUpTo h.entries index)
    (hfuel : index ≤ fuel) : Ordered (IndexedHeap.siftUp fuel h index).entries := by
  induction fuel generalizing h index with
  | zero =>
    obtain rfl := Nat.le_zero.mp hfuel
    exact hordered.ordered fun parent hparent => absurd rfl hparent.1
  | succ fuel ih =>
    unfold IndexedHeap.siftUp
    split
    · rename_i hroot
      exact hordered.ordered fun parent hparent => absurd hroot hparent.1
    rename_i hroot
    have hparent := below_parent hroot
    dsimp only
    split
    · rename_i habove hentry
      split
      · rename_i hle
        refine hordered.ordered fun parent hbelow x y hx hy => ?_
        obtain rfl := hbelow.unique hparent
        rw [habove] at hx
        rw [hentry] at hy
        cases hx
        cases hy
        exact hle
      · rename_i hlt
        have hexchanged := exchanged_swap (Nat.ne_of_lt hparent.lt) habove hentry
        have hlow := hparent.lt
        exact ih (hordered.exchange hparent hexchanged (not_le.mp hlt)) (by omega)
    · rename_i hmissing
      refine hordered.ordered fun parent hbelow x y hx hy => ?_
      obtain rfl := hbelow.unique hparent
      exact absurd hy (hmissing x y hx)

theorem OrderedDownTo.siftDown {fuel : ℕ} (hordered : OrderedDownTo h.entries index)
    (hfuel : h.entries.length ≤ index + fuel) :
    Ordered (IndexedHeap.siftDown fuel h index).entries := by
  induction fuel generalizing h index with
  | zero =>
    refine hordered.ordered fun child _ x y hx _ => ?_
    have := (List.getElem?_eq_some_iff.mp hx).1
    omega
  | succ fuel ih =>
    unfold IndexedHeap.siftDown
    dsimp only
    split
    · rename_i hentry hbelow
      obtain ⟨hchild, hleast⟩ := smallerChild_spec hbelow
      split
      · rename_i hle
        refine hordered.ordered fun child hother x y hx hy => ?_
        rw [hentry] at hx
        cases hx
        exact hle.trans (hleast child y hother hy)
      · rename_i hlt
        have hexchanged := exchanged_swap (Nat.ne_of_lt hchild.lt) hentry hbelow
        have hdown := hchild.lt
        refine ih (hordered.exchange hchild hexchanged hleast (not_le.mp hlt)) ?_
        rw [length_swap]
        omega
    · rename_i hmissing
      refine hordered.ordered fun child hother x y hx hy => ?_
      cases hbelow : h.entries[h.smallerChild (index * 2 + 1)]? with
      | some below => exact absurd hbelow (hmissing x below hx)
      | none =>
        rw [smallerChild_missing hbelow hother] at hy
        cases hy

end Sift

/-! ## Operations -/

section Operations

variable {h : IndexedHeap α τ}

/-- Every step that does not touch `index` is in order. -/
structure OrderedAround (entries : List (Entry α τ)) (index : ℕ) : Prop where
  elsewhere : ∀ child parent, Below child parent → child ≠ index → parent ≠ index →
    InOrder entries parent child
  bridged : Bridged entries index

variable {entries : List (Entry α τ)} {index : ℕ} {key : α} {x : Entry α τ}

theorem OrderedAround.upTo (h : OrderedAround entries index)
    (hbelow : ∀ child, Below child index → InOrder entries index child) :
    OrderedUpTo entries index := by
  refine ⟨fun child parent hchild hne => ?_, h.bridged⟩
  by_cases hparent : parent = index
  · subst hparent
    exact hbelow child hchild
  · exact h.elsewhere child parent hchild hne hparent

theorem OrderedAround.downTo (h : OrderedAround entries index)
    (habove : ∀ parent, Below index parent → InOrder entries parent index) :
    OrderedDownTo entries index := by
  refine ⟨fun child parent hchild hne => ?_, h.bridged⟩
  by_cases hchanged : child = index
  · subst hchanged
    exact habove parent hchild
  · exact h.elsewhere child parent hchild hchanged hne

/-- A list that differs from an ordered one at one position, or ends earlier. -/
theorem Ordered.around {changed : List (Entry α τ)} (hordered : Ordered entries)
    (hother : ∀ i x, i ≠ index → changed[i]? = some x → entries[i]? = some x) :
    OrderedAround changed index := by
  constructor
  · intro child parent hchild hne hparent x y hx hy
    exact hordered child parent hchild x y (hother parent x hparent hx) (hother child y hne hy)
  · intro child parent hchild hparent x y hx hy
    have hdown := hchild.lt
    have hup := hparent.lt
    exact hordered.bridged index child parent hchild hparent x y (hother parent x (by omega) hx)
      (hother child y (by omega) hy)

/-- A smaller key is in order with the children. -/
theorem Ordered.setKey_upTo (hordered : Ordered h.entries) {previous : Entry α τ}
    (hprevious : h.entries[index]? = some previous) (hle : key ≤ previous.key) :
    OrderedUpTo (h.setKey index key).entries index := by
  refine (hordered.around fun i x hne hx => setKey_other hne hx).upTo ?_
  intro child hchild x y hx hy
  rw [setKey_same hx]
  have hy := setKey_other (Nat.ne_of_gt hchild.lt) hy
  exact hle.trans (hordered child index hchild previous y hprevious hy)

/-- A larger key is in order with the parent. -/
theorem Ordered.setKey_downTo (hordered : Ordered h.entries) {previous : Entry α τ}
    (hprevious : h.entries[index]? = some previous) (hle : previous.key ≤ key) :
    OrderedDownTo (h.setKey index key).entries index := by
  refine (hordered.around fun i x hne hx => setKey_other hne hx).downTo ?_
  intro parent hparent x y hx hy
  rw [setKey_same hy]
  have hx := setKey_other (Nat.ne_of_lt hparent.lt) hx
  exact (hordered index parent hparent x previous hx hprevious).trans hle

variable [DecidableEq τ]

variable (hordered : Ordered h.entries)

include hordered

theorem Ordered.append (target : τ) (key : α) :
    OrderedUpTo (h.append target key).entries h.entries.length := by
  have hend : ∀ i x, (h.append target key).entries[i]? = some x → i ≤ h.entries.length := by
    intro i x hx
    have hlt := (List.getElem?_eq_some_iff.mp hx).1
    simp only [IndexedHeap.append, List.length_append, List.length_singleton] at hlt
    omega
  have haround : OrderedAround (h.append target key).entries h.entries.length := by
    refine hordered.around fun i x hne hx => ?_
    have hle := hend i x hx
    unfold IndexedHeap.append at hx
    rw [List.getElem?_append_left (by omega)] at hx
    exact hx
  refine haround.upTo fun child hchild x y _ hy => ?_
  have hle := hend child y hy
  have hlt := hchild.lt
  omega

theorem Ordered.insertOrUpdate {h' : IndexedHeap α τ} {target : τ}
    {oom : Bool} (hinsert : h.insertOrUpdate target key oom = some h') : Ordered h'.entries := by
  unfold IndexedHeap.insertOrUpdate at hinsert
  split at hinsert
  · rename_i index _
    split at hinsert
    · cases hinsert
      exact hordered
    rename_i hprevious
    dsimp only at hinsert
    split at hinsert
    · rename_i hlt
      cases hinsert
      exact (hordered.setKey_upTo hprevious hlt.le).siftUp (Nat.le_refl _)
    split at hinsert
    · rename_i hlt
      cases hinsert
      refine (hordered.setKey_downTo hprevious hlt.le).siftDown ?_
      simp [IndexedHeap.setKey]
    · rename_i hge hle
      cases hinsert
      refine (hordered.setKey_upTo hprevious (not_lt.mp hle)).ordered fun parent hparent => ?_
      exact (hordered.setKey_downTo hprevious (not_lt.mp hge)).elsewhere index parent hparent
        (Nat.ne_of_lt hparent.lt)
  · split at hinsert
    · cases hinsert
    · cases hinsert
      exact (hordered.append target key).siftUp (Nat.le_refl _)

theorem Ordered.remove (target : τ) :
    Ordered (h.remove target).1.entries := by
  unfold IndexedHeap.remove
  split
  · exact hordered
  rename_i index _
  split
  · rename_i removed replacement hremoved hlast
    have haround : OrderedAround (h.replace index removed replacement).entries index :=
      hordered.around fun i x hne hx => replace_other hne hx
    dsimp only
    split
    · rename_i above hentry habove
      split
      · rename_i hup
        refine (haround.upTo fun child hchild x y hx hy => ?_).siftUp (Nat.le_refl _)
        rw [hentry] at hx
        cases hx
        exact hup.2.le.trans (haround.bridged child _ hchild (below_parent hup.1) above y habove hy)
      · rename_i hdown
        refine (haround.downTo fun parent hparent x y hx hy => ?_).siftDown (Nat.le_add_left _ _)
        obtain rfl := hparent.unique (below_parent hparent.1)
        rw [habove] at hx
        rw [hentry] at hy
        cases hx
        cases hy
        exact not_lt.mp fun hlt => hdown ⟨hparent.1, hlt⟩
    · rename_i hmissing
      have hdropped : ∀ x, (h.replace index removed replacement).entries[index]? ≠ some x := by
        intro x hx
        have hlt := (List.getElem?_eq_some_iff.mp hx).1
        have hparent : (index - 1) / 2 < (h.replace index removed replacement).entries.length := by
          omega
        exact hmissing x _ hx (List.getElem?_eq_getElem hparent)
      refine (haround.upTo fun child _ x y hx _ => absurd hx (hdropped x)).ordered ?_
      exact fun parent _ x y _ hy => absurd hy (hdropped y)
  · exact hordered

end Operations

end IndexedHeap
