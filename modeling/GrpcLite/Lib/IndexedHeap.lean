import Mathlib.Data.List.Nodup
import Mathlib.Order.Basic
import Mathlib.Algebra.Order.Group.Nat
import Mathlib.Tactic.Common

/-!
# Binary heaps with stored positions

A binary heap in an array whose targets know their own position, so that the entry of a target can
be changed or removed without a search.  The heap stands for the map `find` from targets to keys;
every operation is described by what it does to that map.
-/

structure IndexedHeap.Entry (α τ : Type) where
  key : α
  target : τ
  deriving DecidableEq, Repr

/-- `index` is the position that each target stores. -/
structure IndexedHeap (α τ : Type) where
  entries : List (IndexedHeap.Entry α τ) := []
  index : τ → Option ℕ := fun _ => none

namespace IndexedHeap

variable {α τ : Type}

section Operations

variable [DecidableEq τ]

def swap (h : IndexedHeap α τ) (a b : ℕ) : IndexedHeap α τ :=
  if a = b then h
  else match h.entries[a]?, h.entries[b]? with
    | some x, some y =>
      { entries := (h.entries.set a y).set b x
        index := Function.update (Function.update h.index y.target (some a)) x.target (some b) }
    | _, _ => h

def setKey (h : IndexedHeap α τ) (index : ℕ) (key : α) : IndexedHeap α τ :=
  { h with entries := h.entries.modify index ({ · with key := key }) }

def append (h : IndexedHeap α τ) (target : τ) (key : α) : IndexedHeap α τ :=
  { entries := h.entries ++ [⟨key, target⟩]
    index := Function.update h.index target (some h.entries.length) }

def replace (h : IndexedHeap α τ) (index : ℕ) (removed replacement : Entry α τ) : IndexedHeap α τ :=
  let index' := Function.update h.index removed.target none
  if index < h.entries.length - 1 then
    { entries := h.entries.dropLast.set index replacement
      index := Function.update index' replacement.target (some index) }
  else { entries := h.entries.dropLast, index := index' }

variable [LinearOrder α]

/-- `fuel` bounds the way to the root. -/
def siftUp : (fuel : ℕ) → IndexedHeap α τ → ℕ → IndexedHeap α τ
  | 0, h, _ => h
  | fuel + 1, h, index =>
    if index = 0 then h
    else
      let parent := (index - 1) / 2
      match h.entries[parent]?, h.entries[index]? with
      | some above, some entry =>
        if above.key ≤ entry.key then h else siftUp fuel (h.swap parent index) parent
      | _, _ => h

def smallerChild (h : IndexedHeap α τ) (left : ℕ) : ℕ :=
  match h.entries[left]?, h.entries[left + 1]? with
  | some l, some r => if r.key < l.key then left + 1 else left
  | _, _ => left

/-- `fuel` bounds the way to a leaf. -/
def siftDown : (fuel : ℕ) → IndexedHeap α τ → ℕ → IndexedHeap α τ
  | 0, h, _ => h
  | fuel + 1, h, index =>
    let child := h.smallerChild (index * 2 + 1)
    match h.entries[index]?, h.entries[child]? with
    | some entry, some below =>
      if entry.key ≤ below.key then h else siftDown fuel (h.swap index child) child
    | _, _ => h

/-- `oom` says whether the array cannot grow. -/
def insertOrUpdate (h : IndexedHeap α τ) (target : τ) (key : α) (oom : Bool) :
    Option (IndexedHeap α τ) :=
  match h.index target with
  | some index =>
    match h.entries[index]? with
    | none => some h
    | some previous =>
      let updated := h.setKey index key
      if key < previous.key then some (siftUp index updated index)
      else if previous.key < key then some (siftDown h.entries.length updated index)
      else some updated
  | none =>
    if oom then none
    else some (siftUp h.entries.length (h.append target key) h.entries.length)

def remove (h : IndexedHeap α τ) (target : τ) : IndexedHeap α τ × Bool :=
  match h.index target with
  | none => (h, false)
  | some index =>
    match h.entries[index]?, h.entries.getLast? with
    | some removed, some replacement =>
      let rest := h.replace index removed replacement
      match rest.entries[index]?, rest.entries[(index - 1) / 2]? with
      | some entry, some above =>
        if index ≠ 0 ∧ entry.key < above.key then (siftUp index rest index, true)
        else (siftDown rest.entries.length rest index, true)
      | _, _ => (rest, true)
    | _, _ => (h, false)

def peek (h : IndexedHeap α τ) : Option (Entry α τ) := h.entries.head?

def pop (h : IndexedHeap α τ) : Option (Entry α τ × IndexedHeap α τ) :=
  h.peek.map fun entry => (entry, (h.remove entry.target).1)

end Operations

/-! ## The map -/

def find (h : IndexedHeap α τ) (target : τ) : Option α :=
  (h.index target).bind fun index => h.entries[index]?.map Entry.key

structure Indexed (h : IndexedHeap α τ) : Prop where
  placed : ∀ i entry, h.entries[i]? = some entry → h.index entry.target = some i
  stored : ∀ target i, h.index target = some i →
    ∃ entry, h.entries[i]? = some entry ∧ entry.target = target

section Map

variable {h h' : IndexedHeap α τ}

theorem empty_indexed : ({} : IndexedHeap α τ).Indexed := ⟨by simp, by simp⟩

variable {i : ℕ}

theorem Indexed.find_eq (hh : h.Indexed) {entry : Entry α τ} (hentry : h.entries[i]? = some entry) :
    h.find entry.target = some entry.key := by
  unfold find
  rw [hh.placed i entry hentry, Option.bind_some, hentry, Option.map_some]

/-- Different positions hold different targets. -/
theorem Indexed.target_inj (hh : h.Indexed) {j : ℕ} {x y : Entry α τ} (hx : h.entries[i]? = some x)
    (hy : h.entries[j]? = some y) (htarget : x.target = y.target) : i = j := by
  have hi := hh.placed i x hx
  rw [htarget, hh.placed j y hy] at hi
  exact (Option.some.inj hi).symm

theorem Indexed.nodup (hh : h.Indexed) : (h.entries.map Entry.target).Nodup := by
  rw [List.nodup_iff_getElem?_ne_getElem?]
  intro i j hij hj heq
  rw [List.length_map] at hj
  have hi : i < h.entries.length := Nat.lt_trans hij hj
  rw [List.getElem?_map, List.getElem?_map, List.getElem?_eq_getElem hj,
    List.getElem?_eq_getElem hi, Option.map_some, Option.map_some, Option.some.injEq] at heq
  have hsame := hh.target_inj (List.getElem?_eq_getElem hi) (List.getElem?_eq_getElem hj) heq
  omega

theorem Indexed.find_eq_some_iff (hh : h.Indexed) {target : τ} {key : α} :
    h.find target = some key ↔ ⟨key, target⟩ ∈ h.entries := by
  constructor
  · intro hfind
    obtain ⟨i, hi, hkey⟩ := Option.bind_eq_some_iff.mp hfind
    obtain ⟨entry, hentry, rfl⟩ := hh.stored target i hi
    rw [hentry, Option.map_some, Option.some.injEq] at hkey
    subst hkey
    exact List.mem_of_getElem? hentry
  · intro hmem
    obtain ⟨i, hi⟩ := List.mem_iff_getElem?.mp hmem
    exact hh.find_eq hi

def entriesOf [DecidableEq τ] (h : IndexedHeap α τ) (target : τ) : List (Entry α τ) :=
  h.entries.filter (·.target = target)

theorem Indexed.entriesOf_eq [DecidableEq τ] (hh : h.Indexed) (target : τ) :
    h.entriesOf target = (h.find target).toList.map (⟨·, target⟩) := by
  have hmem : ∀ entry ∈ h.entriesOf target,
      h.find target = some entry.key ∧ entry.target = target := by
    intro entry hentry
    obtain ⟨hin, htarget⟩ := List.mem_filter.mp hentry
    obtain rfl : entry.target = target := by simpa using htarget
    exact ⟨hh.find_eq_some_iff.mpr hin, rfl⟩
  cases hfind : h.find target with
  | none =>
    refine List.eq_nil_iff_forall_not_mem.mpr fun entry hentry => ?_
    simp [(hmem entry hentry).1] at hfind
  | some key =>
    have hall : ∀ entry ∈ h.entriesOf target, entry = ⟨key, target⟩ := by
      intro entry hentry
      obtain ⟨hkey, htarget⟩ := hmem entry hentry
      rw [hfind] at hkey
      cases entry
      simp_all
    have hin : (⟨key, target⟩ : Entry α τ) ∈ h.entriesOf target :=
      List.mem_filter.mpr ⟨hh.find_eq_some_iff.mp hfind, by simp⟩
    have hnodup : (h.entriesOf target).Nodup := hh.nodup.of_map _ |>.filter _
    match hlist : h.entriesOf target with
    | [] => simp [hlist] at hin
    | [entry] => simp [hall entry (by simp [hlist])]
    | entry :: other :: rest =>
      have hfirst := hall entry (by simp [hlist])
      have hsecond := hall other (by simp [hlist])
      simp [hlist, hfirst, hsecond] at hnodup

structure Rearranged (h h' : IndexedHeap α τ) : Prop where
  indexed : h'.Indexed
  mem_iff : ∀ entry, entry ∈ h'.entries ↔ entry ∈ h.entries

theorem Rearranged.refl (hh : h.Indexed) : h.Rearranged h := ⟨hh, fun _ => Iff.rfl⟩

theorem Rearranged.trans {h'' : IndexedHeap α τ} (hfirst : h.Rearranged h')
    (hsecond : h'.Rearranged h'') : h.Rearranged h'' :=
  ⟨hsecond.indexed, fun entry => (hsecond.mem_iff entry).trans (hfirst.mem_iff entry)⟩

theorem Rearranged.find (hrearranged : h.Rearranged h') (hh : h.Indexed) : h'.find = h.find := by
  funext target
  refine Option.ext fun key => ?_
  rw [hh.find_eq_some_iff, hrearranged.indexed.find_eq_some_iff]
  exact hrearranged.mem_iff _

end Map

/-! ## Swapping -/

section Swap

variable [DecidableEq τ] {h : IndexedHeap α τ}

theorem swap_cases (h : IndexedHeap α τ) (a b : ℕ) :
    h.swap a b = h ∨ a ≠ b ∧ ∃ x y, h.entries[a]? = some x ∧ h.entries[b]? = some y ∧
      h.swap a b =
        { entries := (h.entries.set a y).set b x
          index := Function.update (Function.update h.index y.target (some a)) x.target
            (some b) } := by
  unfold swap
  split
  · exact .inl rfl
  · rename_i hab
    split
    · rename_i x y hx hy
      exact .inr ⟨hab, x, y, hx, hy, rfl⟩
    · exact .inl rfl

omit [DecidableEq τ] in
theorem getElem?_exchange {a b : ℕ} {x y : Entry α τ} (hx : h.entries[a]? = some x)
    (hy : h.entries[b]? = some y) (i : ℕ) :
    ((h.entries.set a y).set b x)[i]? =
      if i = b then some x else if i = a then some y else h.entries[i]? := by
  have ha : a < h.entries.length := (List.getElem?_eq_some_iff.mp hx).1
  have hb : b < h.entries.length := (List.getElem?_eq_some_iff.mp hy).1
  by_cases hib : i = b
  · subst hib
    simp [hb]
  · rw [List.getElem?_set_ne (Ne.symm hib), if_neg hib]
    by_cases hia : i = a
    · subst hia
      simp [ha]
    · rw [List.getElem?_set_ne (Ne.symm hia), if_neg hia]

theorem Indexed.swap (hh : h.Indexed) (a b : ℕ) : h.Rearranged (h.swap a b) := by
  rcases h.swap_cases a b with hsame | ⟨hab, x, y, hx, hy, hswap⟩
  · rw [hsame]
    exact .refl hh
  have hget := getElem?_exchange hx hy
  have hne : y.target ≠ x.target := fun heq => hab (hh.target_inj hx hy heq.symm)
  rw [hswap]
  refine ⟨⟨fun i entry hentry => ?_, fun target i hi => ?_⟩, fun entry => ?_⟩
  · show Function.update (Function.update h.index y.target (some a)) x.target
      (some b) entry.target =
      some i
    change ((h.entries.set a y).set b x)[i]? = some entry at hentry
    rw [hget] at hentry
    split at hentry
    · rename_i hib
      cases hentry
      rw [Function.update_self, hib]
    · split at hentry
      · rename_i hia
        cases hentry
        rw [Function.update_of_ne hne, Function.update_self, hia]
      · rename_i hib hia
        have hentryx : entry.target ≠ x.target := fun heq => hia (hh.target_inj hentry hx heq)
        have hentryy : entry.target ≠ y.target := fun heq => hib (hh.target_inj hentry hy heq)
        rw [Function.update_of_ne hentryx, Function.update_of_ne hentryy]
        exact hh.placed i entry hentry
  · change Function.update (Function.update h.index y.target (some a)) x.target (some b) target =
      some i at hi
    show ∃ entry, ((h.entries.set a y).set b x)[i]? = some entry ∧ entry.target = target
    rw [hget]
    by_cases htx : target = x.target
    · rw [htx, Function.update_self] at hi
      cases hi
      exact ⟨x, by simp, htx.symm⟩
    · rw [Function.update_of_ne htx] at hi
      by_cases hty : target = y.target
      · rw [hty, Function.update_self] at hi
        cases hi
        exact ⟨y, by simp [hab], hty.symm⟩
      · rw [Function.update_of_ne hty] at hi
        obtain ⟨entry, hentry, rfl⟩ := hh.stored target i hi
        have hib : i ≠ b := by
          rintro rfl
          exact hty (by rw [Option.some.inj (hentry.symm.trans hy)])
        have hia : i ≠ a := by
          rintro rfl
          exact htx (by rw [Option.some.inj (hentry.symm.trans hx)])
        exact ⟨entry, by simp [hib, hia, hentry], rfl⟩
  · rw [List.mem_iff_getElem?, List.mem_iff_getElem?]
    constructor
    · rintro ⟨i, hi⟩
      rw [hget] at hi
      split at hi
      · exact ⟨a, hx.trans hi⟩
      · split at hi
        · exact ⟨b, hy.trans hi⟩
        · exact ⟨i, hi⟩
    · rintro ⟨i, hi⟩
      by_cases hia : i = a
      · refine ⟨b, ?_⟩
        rw [hget, if_pos rfl, ← hi, hia, hx]
      · by_cases hib : i = b
        · refine ⟨a, ?_⟩
          rw [hget, if_neg hab, if_pos rfl, ← hi, hib, hy]
        · exact ⟨i, by rw [hget, if_neg hib, if_neg hia, hi]⟩

end Swap

section Sift

variable [DecidableEq τ] [LinearOrder α] {h : IndexedHeap α τ}

theorem Indexed.siftUp (hh : h.Indexed) (fuel index : ℕ) :
    h.Rearranged (IndexedHeap.siftUp fuel h index) := by
  induction fuel generalizing h index with
  | zero => exact .refl hh
  | succ fuel ih =>
    unfold IndexedHeap.siftUp
    split
    · exact .refl hh
    · dsimp only
      split
      · split
        · exact .refl hh
        · have hswap := hh.swap ((index - 1) / 2) index
          exact hswap.trans (ih hswap.indexed _)
      · exact .refl hh

theorem Indexed.siftDown (hh : h.Indexed) (fuel index : ℕ) :
    h.Rearranged (IndexedHeap.siftDown fuel h index) := by
  induction fuel generalizing h index with
  | zero => exact .refl hh
  | succ fuel ih =>
    unfold IndexedHeap.siftDown
    dsimp only
    split
    · split
      · exact .refl hh
      · have hswap := hh.swap index (h.smallerChild (index * 2 + 1))
        exact hswap.trans (ih hswap.indexed _)
    · exact .refl hh

end Sift

/-! ## Changing the map -/

section Change

variable [DecidableEq τ] {h : IndexedHeap α τ}

variable {target : τ} {index : ℕ} {removed replacement : Entry α τ}

/-- One target changes. -/
theorem Indexed.find_update {h' : IndexedHeap α τ} (hh : h.Indexed) (hh' : h'.Indexed)
    {value : Option α} (hself : ∀ key, ⟨key, target⟩ ∈ h'.entries ↔ value = some key)
    (hother : ∀ entry : Entry α τ, entry.target ≠ target →
      (entry ∈ h'.entries ↔ entry ∈ h.entries)) :
    h'.find = Function.update h.find target value := by
  funext other
  refine Option.ext fun key => ?_
  rw [hh'.find_eq_some_iff]
  by_cases hsame : other = target
  · subst hsame
    rw [Function.update_self]
    exact hself key
  · rw [Function.update_of_ne hsame, hh.find_eq_some_iff]
    exact hother _ hsame

omit [DecidableEq τ] in
theorem getElem?_setKey (h : IndexedHeap α τ) (index : ℕ) (key : α) (i : ℕ) :
    (h.setKey index key).entries[i]? =
      (h.entries[i]?).map fun entry => if index = i then { entry with key := key } else entry := by
  unfold setKey
  rw [List.getElem?_modify]
  rfl

variable (hh : h.Indexed)

include hh

theorem Indexed.setKey {entry : Entry α τ} (hentry : h.entries[index]? = some entry) (key : α) :
    (h.setKey index key).Indexed ∧
      (h.setKey index key).find = Function.update h.find entry.target (some key) := by
  have hindexed : (h.setKey index key).Indexed := by
    constructor
    · intro i other hother
      rw [getElem?_setKey] at hother
      obtain ⟨old, hold, rfl⟩ := Option.map_eq_some_iff.mp hother
      split
      · exact hh.placed i old hold
      · exact hh.placed i old hold
    · intro target i hi
      obtain ⟨old, hold, rfl⟩ := hh.stored target i hi
      refine ⟨_, by rw [getElem?_setKey, hold]; rfl, ?_⟩
      split <;> rfl
  refine ⟨hindexed, hh.find_update hindexed (fun other => ?_) fun other hother => ?_⟩
  · rw [← hindexed.find_eq_some_iff]
    have hnew : (h.setKey index key).entries[index]? = some { entry with key := key } := by
      rw [getElem?_setKey, hentry, Option.map_some, if_pos rfl]
    rw [hindexed.find_eq hnew]
  · rw [List.mem_iff_getElem?, List.mem_iff_getElem?]
    refine exists_congr fun i => ?_
    rw [getElem?_setKey]
    by_cases hi : index = i
    · subst hi
      rw [hentry, Option.map_some, if_pos rfl]
      constructor
      · intro hsome
        exact absurd (by rw [← Option.some.inj hsome]) hother
      · intro hsome
        exact absurd (by rw [← Option.some.inj hsome]) hother
    · simp [hi]

theorem Indexed.append (hnew : h.index target = none) (key : α) :
    (h.append target key).Indexed ∧
      (h.append target key).find = Function.update h.find target (some key) := by
  have habsent : ∀ (i : ℕ) (entry : Entry α τ), h.entries[i]? = some entry →
      entry.target ≠ target := by
    rintro i entry hentry rfl
    cases (hh.placed i entry hentry).symm.trans hnew
  have hindexed : (h.append target key).Indexed := by
    constructor
    · intro i entry hentry
      show Function.update h.index target (some h.entries.length) entry.target = some i
      change (h.entries ++ [⟨key, target⟩])[i]? = some entry at hentry
      rcases Nat.lt_or_ge i h.entries.length with hi | hi
      · rw [List.getElem?_append_left hi] at hentry
        rw [Function.update_of_ne (habsent i entry hentry)]
        exact hh.placed i entry hentry
      · rw [List.getElem?_append_right hi, List.getElem?_singleton] at hentry
        split at hentry
        · cases hentry
          rw [Function.update_self, show i = h.entries.length by omega]
        · cases hentry
    · intro other i hi
      change Function.update h.index target (some h.entries.length) other = some i at hi
      show ∃ entry, (h.entries ++ [⟨key, target⟩])[i]? = some entry ∧ entry.target = other
      by_cases hsame : other = target
      · rw [hsame, Function.update_self] at hi
        cases hi
        exact ⟨⟨key, target⟩, by simp, hsame.symm⟩
      · rw [Function.update_of_ne hsame] at hi
        obtain ⟨entry, hentry, htarget⟩ := hh.stored other i hi
        have hlt : i < h.entries.length := (List.getElem?_eq_some_iff.mp hentry).1
        exact ⟨entry, by rw [List.getElem?_append_left hlt, hentry], htarget⟩
  refine ⟨hindexed, hh.find_update hindexed (fun other => ?_) fun other hother => ?_⟩
  · show ⟨other, target⟩ ∈ h.entries ++ [⟨key, target⟩] ↔ _
    rw [List.mem_append, List.mem_singleton, Option.some.injEq]
    constructor
    · rintro (hmem | heq)
      · obtain ⟨i, hi⟩ := List.mem_iff_getElem?.mp hmem
        exact absurd rfl (habsent i _ hi)
      · cases heq
        rfl
    · rintro rfl
      exact .inr rfl
  · show other ∈ h.entries ++ [⟨key, target⟩] ↔ _
    rw [List.mem_append, List.mem_singleton]
    constructor
    · rintro (hmem | rfl)
      · exact hmem
      · exact absurd rfl hother
    · exact .inl

/-- Without the last entry. -/
theorem Indexed.dropLast {last : Entry α τ} (hlast : h.entries[h.entries.length - 1]? = some last) :
    Indexed ⟨h.entries.dropLast, Function.update h.index last.target none⟩ ∧
      find ⟨h.entries.dropLast, Function.update h.index last.target none⟩ =
        Function.update h.find last.target none := by
  have hget : ∀ {i : ℕ} {entry : Entry α τ}, h.entries.dropLast[i]? = some entry ↔
      h.entries[i]? = some entry ∧ entry.target ≠ last.target := by
    intro i entry
    rw [List.getElem?_dropLast]
    constructor
    · intro hentry
      split at hentry
      · refine ⟨hentry, fun htarget => ?_⟩
        have heq := hh.target_inj hentry hlast htarget
        omega
      · cases hentry
    · rintro ⟨hentry, htarget⟩
      have hlt : i < h.entries.length := (List.getElem?_eq_some_iff.mp hentry).1
      have hne : i ≠ h.entries.length - 1 := by
        rintro rfl
        exact htarget (by rw [Option.some.inj (hentry.symm.trans hlast)])
      rw [if_pos (by omega)]
      exact hentry
  have hindexed : Indexed ⟨h.entries.dropLast, Function.update h.index last.target none⟩ := by
    constructor
    · intro i entry hentry
      obtain ⟨hentry, htarget⟩ := hget.mp hentry
      show Function.update h.index last.target none entry.target = some i
      rw [Function.update_of_ne htarget]
      exact hh.placed i entry hentry
    · intro target i hi
      change Function.update h.index last.target none target = some i at hi
      by_cases hsame : target = last.target
      · rw [hsame, Function.update_self] at hi
        cases hi
      · rw [Function.update_of_ne hsame] at hi
        obtain ⟨entry, hentry, rfl⟩ := hh.stored target i hi
        exact ⟨entry, hget.mpr ⟨hentry, hsame⟩, rfl⟩
  refine ⟨hindexed, hh.find_update hindexed (fun key => ?_) fun entry hentry => ?_⟩
  · constructor
    · intro hmem
      obtain ⟨i, hi⟩ := List.mem_iff_getElem?.mp hmem
      exact absurd rfl (hget.mp hi).2
    · exact nofun
  · rw [List.mem_iff_getElem?, List.mem_iff_getElem?]
    exact exists_congr fun i => hget.trans (and_iff_left hentry)

/-- The removed entry changes places with the last one, which is then dropped. -/
theorem Indexed.replace_eq (hremoved : h.entries[index]? = some removed)
    (hlast : h.entries[h.entries.length - 1]? = some replacement) :
    h.replace index removed replacement = ⟨(h.swap index (h.entries.length - 1)).entries.dropLast,
        Function.update (h.swap index (h.entries.length - 1)).index removed.target none⟩ := by
  have hlt : index < h.entries.length := (List.getElem?_eq_some_iff.mp hremoved).1
  unfold IndexedHeap.replace IndexedHeap.swap
  dsimp only
  by_cases hinner : index < h.entries.length - 1
  · have hne : removed.target ≠ replacement.target := fun heq =>
      absurd (hh.target_inj hremoved hlast heq) (by omega)
    rw [if_pos hinner, if_neg (by omega), hremoved, hlast]
    congr 1
    · refine List.ext_getElem? fun i => ?_
      by_cases hi : i < h.entries.length - 1
      · have hend : h.entries.length - 1 ≠ i := by omega
        by_cases hindex : index = i
        · subst hindex
          simp [hend, hi]
        · simp [hend, hi, hindex]
      · simp [hi]
    · rw [Function.update_idem, Function.update_comm hne]
  · rw [if_neg hinner, if_pos (by omega)]

theorem Indexed.replace (hremoved : h.entries[index]? = some removed)
    (hlast : h.entries[h.entries.length - 1]? = some replacement) :
    (h.replace index removed replacement).Indexed ∧ (h.replace index removed replacement).find =
        Function.update h.find removed.target none := by
  have hswap := hh.swap index (h.entries.length - 1)
  have hmoved : (h.swap index (h.entries.length - 1)).entries[
      (h.swap index (h.entries.length - 1)).entries.length - 1]? = some removed := by
    unfold IndexedHeap.swap
    split
    · rename_i hend
      rw [← hend, hremoved]
    · rw [hremoved, hlast]
      simp only [List.length_set]
      rw [getElem?_exchange hremoved hlast, if_pos rfl]
  rw [hh.replace_eq hremoved hlast, ← hswap.find hh]
  exact hswap.indexed.dropLast hmoved

end Change

section Operate

variable [DecidableEq τ] [LinearOrder α] {h : IndexedHeap α τ}

theorem Indexed.insertOrUpdate (hh : h.Indexed) {h' : IndexedHeap α τ} {target : τ} {key : α}
    {oom : Bool} (hinsert : h.insertOrUpdate target key oom = some h') :
    h'.Indexed ∧ h'.find = Function.update h.find target (some key) := by
  unfold IndexedHeap.insertOrUpdate at hinsert
  split at hinsert
  · rename_i index hindex
    obtain ⟨entry, hentry, rfl⟩ := hh.stored target index hindex
    rw [hentry] at hinsert
    obtain ⟨hindexed, hfind⟩ := hh.setKey hentry key
    dsimp only at hinsert
    split at hinsert
    · cases hinsert
      have hsift := hindexed.siftUp index index
      exact ⟨hsift.indexed, (hsift.find hindexed).trans hfind⟩
    · split at hinsert
      · cases hinsert
        have hsift := hindexed.siftDown h.entries.length index
        exact ⟨hsift.indexed, (hsift.find hindexed).trans hfind⟩
      · cases hinsert
        exact ⟨hindexed, hfind⟩
  · rename_i hnew
    split at hinsert
    · cases hinsert
    · cases hinsert
      obtain ⟨hindexed, hfind⟩ := hh.append hnew key
      have hsift := hindexed.siftUp h.entries.length h.entries.length
      exact ⟨hsift.indexed, (hsift.find hindexed).trans hfind⟩

theorem Indexed.remove (hh : h.Indexed) (target : τ) :
    (h.remove target).1.Indexed ∧
      (h.remove target).1.find = Function.update h.find target none := by
  unfold IndexedHeap.remove
  split
  · rename_i hnone
    have hfind : h.find target = none := by
      unfold find
      rw [hnone]
      rfl
    exact ⟨hh, by rw [← hfind, Function.update_eq_self]⟩
  · rename_i index hindex
    obtain ⟨removed, hremoved, rfl⟩ := hh.stored target index hindex
    have hlt : index < h.entries.length := (List.getElem?_eq_some_iff.mp hremoved).1
    have hend : h.entries.length - 1 < h.entries.length := by omega
    have hlast := List.getElem?_eq_getElem hend
    rw [List.getLast?_eq_getElem?, hremoved, hlast]
    obtain ⟨hindexed, hfind⟩ := hh.replace hremoved hlast
    dsimp only
    split
    · split
      · have hsift := hindexed.siftUp index index
        exact ⟨hsift.indexed, (hsift.find hindexed).trans hfind⟩
      · have hsift := hindexed.siftDown
          (h.replace index removed h.entries[h.entries.length - 1]).entries.length index
        exact ⟨hsift.indexed, (hsift.find hindexed).trans hfind⟩
    · exact ⟨hindexed, hfind⟩

theorem Indexed.remove_found (hh : h.Indexed) (target : τ) :
    (h.remove target).2 = (h.find target).isSome := by
  unfold IndexedHeap.remove find
  cases hindex : h.index target with
  | none => rfl
  | some index =>
    obtain ⟨removed, hremoved, rfl⟩ := hh.stored target index hindex
    have hlt : index < h.entries.length := (List.getElem?_eq_some_iff.mp hremoved).1
    have hend : h.entries.length - 1 < h.entries.length := by omega
    simp only [List.getLast?_eq_getElem?, hremoved, List.getElem?_eq_getElem hend, Option.bind_some,
      Option.map_some, Option.isSome_some]
    split
    · split <;> rfl
    · rfl

end Operate

end IndexedHeap
