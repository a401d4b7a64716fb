import GrpcLite.Lib.HeapOrder
import GrpcLite.Lib.Prog
import Mathlib.Data.Finmap

/-!
# Deadline heaps

The heap functions of `channel.zig` and of `server.zig`, which differ in their targets only.  A
target stores its position in a field of its own; the heap is an array of entries and these fields.
Array accesses out of bounds and failed assertions are faults.
-/

namespace GrpcLite.Deadline

open Prog

/-- What the heap needs of its targets: the field of a target's position, which is of type `κ`, and
a comparison. -/
class DeadlineTarget (τ : Type) (κ : outParam Type) where
  deadlineTargetIndex : τ → κ
  deadlineTargetsEqual : τ → τ → Bool
  index_injective : Function.Injective deadlineTargetIndex
  targetsEqual_iff : ∀ a b, deadlineTargetsEqual a b = true ↔ a = b

export DeadlineTarget (deadlineTargetIndex deadlineTargetsEqual)

abbrev DeadlineEntry (τ : Type) := IndexedHeap.Entry ℕ τ

structure DeadlineHeap (τ κ : Type) where
  items : List (DeadlineEntry τ) := []
  positions : κ → Option ℕ := fun _ => none

inductive Fault where
  | outOfMemory
  | assertion
  | outOfBounds
  | endless
  deriving DecidableEq, Repr

abbrev HeapM (τ κ : Type) := EStateM Fault (DeadlineHeap τ κ)

section Operations

variable {τ κ : Type} [DecidableEq κ] [DeadlineTarget τ κ]

def item (index : ℕ) : HeapM τ κ (DeadlineEntry τ) := do
  match (← get).items[index]? with
  | some entry => pure entry
  | none => throw .outOfBounds

def setItem (index : ℕ) (entry : DeadlineEntry τ) : HeapM τ κ Unit := do
  let heap ← get
  if index < heap.items.length then set { heap with items := heap.items.set index entry }
  else throw .outOfBounds

def position (target : τ) : HeapM τ κ (Option ℕ) := do
  return (← get).positions (deadlineTargetIndex target)

def setPosition (target : τ) (value : Option ℕ) : HeapM τ κ Unit :=
  modify fun heap =>
    { heap with positions := Function.update heap.positions (deadlineTargetIndex target) value }

def assert (condition : Bool) : HeapM τ κ Unit :=
  if condition then pure () else throw .assertion

def deadlineHeapSwap (a b : ℕ) : HeapM τ κ Unit :=
  if a = b then pure ()
  else do
    let x ← item a
    let y ← item b
    setItem a y
    setItem b x
    setPosition (← item a).target (some a)
    setPosition (← item b).target (some b)

def siftUpLoop : (fuel index : ℕ) → HeapM τ κ ℕ
  | 0, _ => throw .endless
  | fuel + 1, index =>
    if index = 0 then pure index
    else do
      let parent := (index - 1) / 2
      let above ← item parent
      let entry ← item index
      if above.key ≤ entry.key then pure index
      else do
        deadlineHeapSwap parent index
        siftUpLoop fuel parent

def deadlineHeapSiftUp (start : ℕ) : HeapM τ κ ℕ := do
  siftUpLoop ((← get).items.length + 1) start

def chooseChild (left : ℕ) : HeapM τ κ ℕ := do
  let right := left + 1
  if right < (← get).items.length then do
    let r ← item right
    let l ← item left
    if r.key < l.key then pure right else pure left
  else pure left

def siftDownLoop : (fuel index : ℕ) → HeapM τ κ ℕ
  | 0, _ => throw .endless
  | fuel + 1, index => do
    let left := index * 2 + 1
    if (← get).items.length ≤ left then pure index
    else do
      let child ← chooseChild left
      let entry ← item index
      let below ← item child
      if entry.key ≤ below.key then pure index
      else do
        deadlineHeapSwap index child
        siftDownLoop fuel child

def deadlineHeapSiftDown (start : ℕ) : HeapM τ κ ℕ := do
  siftDownLoop ((← get).items.length + 1) start

/-- `oom` says whether the array cannot grow. -/
def deadlineHeapInsertOrUpdate (target : τ) (expiresAtNs : ℕ) (oom : Bool) : HeapM τ κ Unit := do
  match ← position target with
  | some index =>
    assert (index < (← get).items.length)
    assert (deadlineTargetsEqual (← item index).target target)
    let previous := (← item index).key
    setItem index { ← item index with key := expiresAtNs }
    if expiresAtNs < previous then
      let _ ← deadlineHeapSiftUp index
    else if previous < expiresAtNs then
      let _ ← deadlineHeapSiftDown index
  | none =>
    if oom then throw .outOfMemory
    modify fun heap => { heap with items := heap.items ++ [⟨expiresAtNs, target⟩] }
    let index := (← get).items.length - 1
    setPosition target (some index)
    let _ ← deadlineHeapSiftUp index

/-- The condition under which `deadlineHeapRemove` sifts up. -/
def precedesParent (index : ℕ) : HeapM τ κ Bool :=
  if index = 0 then pure false
  else do
    let entry ← item index
    let above ← item ((index - 1) / 2)
    pure (decide (entry.key < above.key))

def deadlineHeapRemove (target : τ) : HeapM τ κ Bool := do
  match ← position target with
  | none => pure false
  | some index =>
    assert (index < (← get).items.length)
    assert (deadlineTargetsEqual (← item index).target target)
    let removed ← item index
    let replacement ← item ((← get).items.length - 1)
    modify fun heap => { heap with items := heap.items.dropLast }
    setPosition removed.target none
    if index < (← get).items.length then
      setItem index replacement
      setPosition replacement.target (some index)
      if ← precedesParent index then
        let _ ← deadlineHeapSiftUp index
      else
        let _ ← deadlineHeapSiftDown index
    pure true

def deadlineHeapPeek : HeapM τ κ (Option (DeadlineEntry τ)) := do
  if (← get).items.length = 0 then pure none
  else
    let entry ← item 0
    pure (some entry)

def deadlineHeapPop : HeapM τ κ (Option (DeadlineEntry τ)) := do
  match ← deadlineHeapPeek with
  | none => pure none
  | some entry =>
    assert (← deadlineHeapRemove entry.target)
    pure (some entry)

end Operations

/-! ## The code against the library's heap -/

section Refinement

variable {τ κ : Type} {heap : DeadlineHeap τ κ} {index : ℕ} {entry : DeadlineEntry τ}
  {E : Fault → DeadlineHeap τ κ → Prop} {Q : Unit → DeadlineHeap τ κ → Prop}

theorem item_wp {Q : DeadlineEntry τ → DeadlineHeap τ κ → Prop}
    (hentry : heap.items[index]? = some entry) (h : Q entry heap) : wp (item index) Q E heap := by
  simp only [item, wp_bind, wp_get, hentry]
  exact h

theorem setItem_wp (hindex : index < heap.items.length)
    (h : Q () { heap with items := heap.items.set index entry }) :
    wp (setItem index entry) Q E heap := by
  simp only [setItem, wp_bind, wp_get, hindex, if_true]
  exact h

theorem assert_wp {condition : Bool} (hcondition : condition = true) (h : Q () heap) :
    wp (assert condition) Q E heap := by
  subst hcondition
  exact h

theorem precedesParent_spec (hindex : index < heap.items.length) :
    wp (precedesParent index) (fun up heap' => heap' = heap ∧ ∃ entry above,
      heap.items[index]? = some entry ∧ heap.items[(index - 1) / 2]? = some above ∧
        (up = true ↔ index ≠ 0 ∧ entry.key < above.key)) never heap := by
  have hparent : (index - 1) / 2 < heap.items.length := by omega
  have hentry := List.getElem?_eq_getElem hindex
  have habove := List.getElem?_eq_getElem hparent
  unfold precedesParent
  split
  · rename_i hroot
    exact ⟨rfl, _, _, hentry, habove, by simp [hroot]⟩
  · rename_i hroot
    simp only [wp_bind]
    refine item_wp hentry (item_wp habove ⟨rfl, _, _, hentry, habove, ?_⟩)
    simp [hroot]

variable [DeadlineTarget τ κ]

def DeadlineHeap.view (heap : DeadlineHeap τ κ) : IndexedHeap ℕ τ where
  entries := heap.items
  index target := heap.positions (deadlineTargetIndex target)

@[simp] theorem view_entries : heap.view.entries = heap.items := rfl

@[simp] theorem view_index (target : τ) :
    heap.view.index target = heap.positions (deadlineTargetIndex target) := rfl

theorem position_wp {Q : Option ℕ → DeadlineHeap τ κ → Prop} (target : τ) :
    wp (position target) Q E heap ↔ Q (heap.view.index target) heap := Iff.rfl

variable {left : ℕ}

theorem chooseChild_spec (hleft : left < heap.items.length) :
    wp (chooseChild left) (fun child heap' => heap' = heap ∧ child = heap.view.smallerChild left)
      never heap := by
  have hl := List.getElem?_eq_getElem hleft
  unfold chooseChild IndexedHeap.smallerChild
  simp only [wp_bind, wp_get, view_entries, hl]
  split
  · rename_i hright
    have hr := List.getElem?_eq_getElem hright
    simp only [wp_bind, hr]
    refine item_wp hr (item_wp hl ?_)
    split
    · exact ⟨rfl, rfl⟩
    · exact ⟨rfl, rfl⟩
  · rw [List.getElem?_eq_none (by omega)]
    exact ⟨rfl, rfl⟩

theorem smallerChild_lt (hleft : left < heap.items.length) :
    left ≤ heap.view.smallerChild left ∧ heap.view.smallerChild left < heap.items.length := by
  unfold IndexedHeap.smallerChild
  split
  · rename_i hr
    have hlength := (List.getElem?_eq_some_iff.mp hr).1
    simp only [view_entries] at hlength
    split <;> omega
  · omega

theorem view_setKey (hentry : heap.items[index]? = some entry) (key : ℕ) :
    ({ heap with items := heap.items.set index { entry with key := key } } :
      DeadlineHeap τ κ).view = heap.view.setKey index key := by
  unfold DeadlineHeap.view IndexedHeap.setKey
  congr 1
  refine List.ext_getElem? fun i => ?_
  rw [List.getElem?_set, List.getElem?_modify]
  split
  · rename_i hindex
    subst hindex
    obtain ⟨hlt, rfl⟩ := List.getElem?_eq_some_iff.mp hentry
    simp [hlt]
  · simp

theorem deadlineHeapPeek_spec :
    wp deadlineHeapPeek (fun entry heap' => heap' = heap ∧ entry = heap.view.peek) never heap := by
  unfold deadlineHeapPeek IndexedHeap.peek
  simp only [wp_bind, wp_get, view_entries]
  split
  · rename_i hempty
    rw [List.length_eq_zero_iff.mp hempty]
    exact ⟨rfl, rfl⟩
  · rename_i hsome
    have hfirst := List.getElem?_eq_getElem (Nat.pos_of_ne_zero hsome)
    rw [wp_bind]
    refine item_wp hfirst ⟨rfl, ?_⟩
    rw [← hfirst, List.head?_eq_getElem?]

variable [DecidableEq κ]

theorem setPosition_wp (target : τ) (value : Option ℕ) :
    wp (setPosition target value) Q E heap ↔ Q () { heap with
      positions := Function.update heap.positions (deadlineTargetIndex target) value } := Iff.rfl

variable [DecidableEq τ] {steps fuel start : ℕ}

theorem update_index (positions : κ → Option ℕ) (target : τ) (value : Option ℕ) :
    (fun other : τ => Function.update positions (deadlineTargetIndex target) value
      (deadlineTargetIndex other)) =
      Function.update (fun other => positions (deadlineTargetIndex other)) target value :=
  Function.update_comp_eq_of_injective positions DeadlineTarget.index_injective target value

theorem deadlineHeapSwap_spec {a b : ℕ} (ha : a < heap.items.length) (hb : b < heap.items.length) :
    wp (deadlineHeapSwap a b) (fun _ heap' => heap'.view = heap.view.swap a b) never heap := by
  have hx := List.getElem?_eq_getElem ha
  have hy := List.getElem?_eq_getElem hb
  unfold deadlineHeapSwap IndexedHeap.swap
  by_cases hab : a = b
  · simp [hab]
  rw [if_neg hab, if_neg hab]
  simp only [wp_bind, view_entries, hx, hy]
  refine item_wp hx (item_wp hy (setItem_wp ha (setItem_wp (by simpa using hb) ?_)))
  have hget := IndexedHeap.getElem?_exchange (h := heap.view) hx hy
  simp only [view_entries] at hget
  refine item_wp ((hget a).trans (by rw [if_neg hab, if_pos rfl])) ?_
  refine item_wp ((hget b).trans (if_pos rfl)) ?_
  rw [setPosition_wp]
  simp only [DeadlineHeap.view, update_index]

theorem parent_lt (h : index ≠ 0) : (index - 1) / 2 < index :=
  (IndexedHeap.below_parent h).lt

theorem siftUpLoop_spec (hindex : index < heap.items.length) (hfuel : index < fuel)
    (hsteps : index ≤ steps) :
    wp (siftUpLoop fuel index) (fun _ heap' => heap'.view = heap.view.siftUp steps index) never
      heap := by
  induction fuel generalizing heap index steps with
  | zero => omega
  | succ fuel ih =>
    unfold siftUpLoop
    by_cases hroot : index = 0
    · subst hroot
      cases steps <;> simp [IndexedHeap.siftUp]
    obtain ⟨steps, rfl⟩ : ∃ rest, steps = rest + 1 := ⟨steps - 1, by omega⟩
    have hparent := parent_lt hroot
    have habove := List.getElem?_eq_getElem (Nat.lt_trans hparent hindex)
    have hentry := List.getElem?_eq_getElem hindex
    unfold IndexedHeap.siftUp
    rw [if_neg hroot, if_neg hroot]
    simp only [wp_bind, view_entries, habove, hentry]
    refine item_wp habove (item_wp hentry ?_)
    split
    · rfl
    · simp only [wp_bind]
      refine wp_ends (deadlineHeapSwap_spec (Nat.lt_trans hparent hindex) hindex) ?_
      intro _ heap₁ hheap₁
      rw [← hheap₁]
      refine ih ?_ (by omega) (by omega)
      have hlength := IndexedHeap.length_swap heap.view ((index - 1) / 2) index
      rw [← hheap₁] at hlength
      simp only [view_entries] at hlength
      omega

theorem siftDownLoop_spec (hindex : index < heap.items.length)
    (hfuel : heap.items.length ≤ index + fuel) (hsteps : heap.items.length ≤ index + steps) :
    wp (siftDownLoop fuel index) (fun _ heap' => heap'.view = heap.view.siftDown steps index) never
      heap := by
  induction fuel generalizing heap index steps with
  | zero => omega
  | succ fuel ih =>
    obtain ⟨steps, rfl⟩ : ∃ rest, steps = rest + 1 := ⟨steps - 1, by omega⟩
    have hentry := List.getElem?_eq_getElem hindex
    unfold siftDownLoop IndexedHeap.siftDown
    simp only [wp_bind, wp_get, view_entries, hentry]
    split
    · rename_i hleaf
      have hnone : heap.items[heap.view.smallerChild (index * 2 + 1)]? = none := by
        have hleft : heap.items[index * 2 + 1]? = none := List.getElem?_eq_none hleaf
        have hsame : heap.view.smallerChild (index * 2 + 1) = index * 2 + 1 := by
          simp [IndexedHeap.smallerChild, hleft]
        rw [hsame, hleft]
      simp [hnone]
    · rename_i hinner
      have hleft : index * 2 + 1 < heap.items.length := not_le.mp hinner
      obtain ⟨hle, hlt⟩ := smallerChild_lt hleft
      have hbelow := List.getElem?_eq_getElem hlt
      simp only [wp_bind]
      refine wp_ends (chooseChild_spec hleft) ?_
      rintro child heap₁ ⟨rfl, rfl⟩
      simp only [hbelow]
      refine item_wp hentry (item_wp hbelow ?_)
      split
      · rfl
      · simp only [wp_bind]
        refine wp_ends (deadlineHeapSwap_spec hindex hlt) ?_
        intro _ heap₂ hheap₂
        have hlength := IndexedHeap.length_swap heap₁.view index
          (heap₁.view.smallerChild (index * 2 + 1))
        rw [← hheap₂] at hlength
        simp only [view_entries] at hlength
        rw [← hheap₂]
        exact ih (by omega) (by omega) (by omega)

theorem deadlineHeapSiftUp_spec (hstart : start < heap.items.length) (hsteps : start ≤ steps) :
    wp (deadlineHeapSiftUp start) (fun _ heap' => heap'.view = heap.view.siftUp steps start) never
      heap := by
  unfold deadlineHeapSiftUp
  simp only [wp_bind, wp_get]
  exact siftUpLoop_spec hstart (by omega) hsteps

theorem deadlineHeapSiftDown_spec (hstart : start < heap.items.length)
    (hsteps : heap.items.length ≤ start + steps) :
    wp (deadlineHeapSiftDown start) (fun _ heap' => heap'.view = heap.view.siftDown steps start)
      never heap := by
  unfold deadlineHeapSiftDown
  simp only [wp_bind, wp_get]
  exact siftDownLoop_spec hstart (by omega) hsteps

theorem deadlineHeapInsertOrUpdate_spec (hh : heap.view.Indexed) (target : τ) (expiresAtNs : ℕ)
    (oom : Bool) :
    wp (deadlineHeapInsertOrUpdate target expiresAtNs oom)
      (fun _ heap' => heap.view.insertOrUpdate target expiresAtNs oom = some heap'.view)
      (fun err heap' => err = .outOfMemory ∧ oom = true ∧ heap.view.index target = none ∧
        heap' = heap)
      heap := by
  unfold deadlineHeapInsertOrUpdate IndexedHeap.insertOrUpdate
  simp only [wp_bind, position_wp]
  cases hindex : heap.view.index target with
  | some index =>
    obtain ⟨entry, hentry, rfl⟩ := hh.stored target index hindex
    have hlt : index < heap.items.length := (List.getElem?_eq_some_iff.mp hentry).1
    simp only [view_entries] at hentry
    simp only [wp_bind, wp_get, view_entries, hentry]
    refine assert_wp (by simpa using hlt) (item_wp hentry (assert_wp ?_ ?_))
    · exact (DeadlineTarget.targetsEqual_iff _ _).mpr rfl
    refine item_wp hentry (item_wp hentry (setItem_wp hlt ?_))
    have hview := view_setKey hentry expiresAtNs
    have hlength : index < (heap.items.set index { entry with key := expiresAtNs }).length := by
      simpa using hlt
    rw [← hview]
    split
    · rw [wp_bind]
      refine wp_ends (deadlineHeapSiftUp_spec hlength (Nat.le_refl _)) fun _ heap' hheap' => ?_
      rw [wp_pure, hheap']
    split
    · have hsteps : (heap.items.set index { entry with key := expiresAtNs }).length ≤
          index + heap.items.length := by
        simp
      rw [wp_bind]
      refine wp_ends (deadlineHeapSiftDown_spec hlength hsteps) fun _ heap' hheap' => ?_
      rw [wp_pure, hheap']
    · rfl
  | none =>
    cases oom with
    | true => exact ⟨rfl, rfl, rfl, rfl⟩
    | false =>
      simp only [Bool.false_eq_true, if_false, wp_bind, wp_pure, wp_modify, wp_get, setPosition_wp,
        List.length_append, List.length_singleton, Nat.add_sub_cancel, view_entries]
      have hview : (⟨heap.items ++ [⟨expiresAtNs, target⟩], Function.update heap.positions
          (deadlineTargetIndex target) (some heap.items.length)⟩ : DeadlineHeap τ κ).view =
            heap.view.append target expiresAtNs := by
        simp only [DeadlineHeap.view, IndexedHeap.append, update_index]
      rw [← hview]
      refine wp_ends (deadlineHeapSiftUp_spec ?_ (Nat.le_refl _)) fun _ heap' hheap' => ?_
      · simp
      · rw [hheap']

theorem view_replace (hinner : index < heap.items.length - 1)
    (removed replacement : DeadlineEntry τ) :
    (⟨heap.items.dropLast.set index replacement, Function.update (Function.update heap.positions
      (deadlineTargetIndex removed.target) none) (deadlineTargetIndex replacement.target)
        (some index)⟩ : DeadlineHeap τ κ).view = heap.view.replace index removed replacement := by
  simp only [DeadlineHeap.view, IndexedHeap.replace, update_index, hinner, if_true]

theorem deadlineHeapRemove_spec (hh : heap.view.Indexed) (target : τ) :
    wp (deadlineHeapRemove target)
      (fun removed heap' => heap.view.remove target = (heap'.view, removed)) never heap := by
  unfold deadlineHeapRemove IndexedHeap.remove
  simp only [wp_bind, position_wp]
  cases hindex : heap.view.index target with
  | none => rfl
  | some index =>
    obtain ⟨removed, hremoved, rfl⟩ := hh.stored target index hindex
    have hlt : index < heap.items.length := (List.getElem?_eq_some_iff.mp hremoved).1
    have hend : heap.items.length - 1 < heap.items.length := by omega
    have hlast := List.getElem?_eq_getElem hend
    simp only [view_entries] at hremoved
    simp only [wp_bind, wp_get, view_entries, List.getLast?_eq_getElem?, hremoved, hlast]
    refine assert_wp (by simpa using hlt) (item_wp hremoved (assert_wp ?_ ?_))
    · exact (DeadlineTarget.targetsEqual_iff _ _).mpr rfl
    refine item_wp hremoved (item_wp hlast ?_)
    simp only [wp_modify, setPosition_wp, List.length_dropLast]
    by_cases hinner : index < heap.items.length - 1
    · rw [if_pos hinner]
      simp only [wp_bind]
      refine setItem_wp (by simpa using hinner) (setPosition_wp _ _ |>.mpr ?_)
      rw [← view_replace hinner]
      have hplaced : index < (heap.items.dropLast.set index
        heap.items[heap.items.length - 1]).length := by
        simpa using hinner
      dsimp only
      generalize heap.items.dropLast.set index heap.items[heap.items.length - 1] =
        items at hplaced ⊢
      refine wp_ends (precedesParent_spec hplaced) ?_
      rintro up heap' ⟨rfl, entry, above, hentry, habove, hup⟩
      simp only [view_entries] at hentry habove ⊢
      simp only [hentry, habove]
      split
      · rename_i hcomes
        rw [if_pos (hup.mp hcomes), wp_bind]
        refine wp_ends (deadlineHeapSiftUp_spec hplaced (Nat.le_refl _))
          fun _ heap' hheap' => ?_
        rw [wp_pure, hheap']
      · rename_i hcomes
        rw [if_neg (mt hup.mpr hcomes), wp_bind]
        refine wp_ends (deadlineHeapSiftDown_spec hplaced (Nat.le_add_left _ _))
          fun _ heap' hheap' => ?_
        rw [wp_pure, hheap']
    · rw [if_neg hinner]
      have hdropped : heap.items.dropLast[index]? = none :=
        List.getElem?_eq_none (by simpa using hinner)
      simp only [IndexedHeap.replace, view_entries, hinner, if_false, hdropped]
      rw [wp_pure]
      simp only [DeadlineHeap.view, update_index]

theorem deadlineHeapPop_spec (hh : heap.view.Indexed) :
    wp deadlineHeapPop (fun entry heap' => entry = heap.view.peek ∧ heap'.view = match entry with
        | none => heap.view
        | some entry => (heap.view.remove entry.target).1) never heap := by
  unfold deadlineHeapPop
  simp only [wp_bind]
  refine wp_ends deadlineHeapPeek_spec ?_
  rintro entry heap₁ ⟨rfl, rfl⟩
  cases hpeek : heap₁.view.peek with
  | none => exact ⟨rfl, rfl⟩
  | some entry =>
    simp only [wp_bind]
    refine wp_ends (deadlineHeapRemove_spec hh entry.target) fun removed heap₂ hremove => ?_
    have hfirst : heap₁.view.entries[0]? = some entry := by
      rw [← List.head?_eq_getElem?]
      exact hpeek
    have hfound := hh.remove_found entry.target
    rw [hremove, hh.find_eq hfirst] at hfound
    refine assert_wp hfound ⟨rfl, ?_⟩
    simp only [hremove]

end Refinement

/-! ## The finite map -/

abbrev DeadlineMap (τ : Type) := Finmap fun _ : τ => ℕ

inductive Operation (τ : Type) where
  | insertOrUpdate (target : τ) (expiresAtNs : ℕ) (oom : Bool)
  | remove (target : τ)
  | peek
  | pop

inductive Answer (τ : Type) where
  | inserted
  | outOfMemory
  | removed (found : Bool)
  | entry (entry : Option (DeadlineEntry τ))

section Map

variable {τ κ : Type} [DecidableEq τ]

structure Earliest (map : DeadlineMap τ) (entry : DeadlineEntry τ) : Prop where
  lookup : map.lookup entry.target = some entry.key
  least : ∀ target expiresAtNs, map.lookup target = some expiresAtNs → entry.key ≤ expiresAtNs

inductive MapStep (map : DeadlineMap τ) : Operation τ → Answer τ → DeadlineMap τ → Prop
  | inserted (target expiresAtNs oom) (room : oom = true → target ∈ map) :
    MapStep map (.insertOrUpdate target expiresAtNs oom) .inserted (map.insert target expiresAtNs)
  | outOfMemory (target expiresAtNs) (absent : target ∉ map) :
    MapStep map (.insertOrUpdate target expiresAtNs true) .outOfMemory map
  | removed (target) :
    MapStep map (.remove target) (.removed (decide (target ∈ map))) (map.erase target)
  | peekEmpty (empty : map = ∅) : MapStep map .peek (.entry none) map
  | peek (entry) (earliest : Earliest map entry) : MapStep map .peek (.entry (some entry)) map
  | popEmpty (empty : map = ∅) : MapStep map .pop (.entry none) map
  | pop (entry) (earliest : Earliest map entry) :
    MapStep map .pop (.entry (some entry)) (map.erase entry.target)

inductive MapRun : DeadlineMap τ → List (Operation τ) → List (Answer τ) → DeadlineMap τ → Prop
  | nil (map) : MapRun map [] [] map
  | cons {map map' map'' operation answer operations answers}
      (step : MapStep map operation answer map')
    (rest : MapRun map' operations answers map'') :
    MapRun map (operation :: operations) (answer :: answers) map''

variable [DecidableEq κ] [DeadlineTarget τ κ]

def perform : Operation τ → HeapM τ κ (Answer τ)
  | .insertOrUpdate target expiresAtNs oom =>
    tryCatch (do
      deadlineHeapInsertOrUpdate target expiresAtNs oom
      pure .inserted) fun
      | .outOfMemory => pure .outOfMemory
      | err => throw err
  | .remove target => .removed <$> deadlineHeapRemove target
  | .peek => .entry <$> deadlineHeapPeek
  | .pop => .entry <$> deadlineHeapPop

def performAll : List (Operation τ) → HeapM τ κ (List (Answer τ))
  | [] => pure []
  | operation :: rest => do
    let answer ← perform operation
    let answers ← performAll rest
    pure (answer :: answers)

/-- The heap holds the entries of the map, each at the position that its target stores. -/
structure DeadlineHeap.Represents (heap : DeadlineHeap τ κ) (map : DeadlineMap τ) : Prop where
  lookup : ∀ target expiresAtNs,
    map.lookup target = some expiresAtNs ↔ ⟨expiresAtNs, target⟩ ∈ heap.items
  once : ∀ target ∈ map, ∃ expiresAtNs,
    heap.items.filter (·.target = target) = [⟨expiresAtNs, target⟩]
  stored : ∀ target i, heap.positions (deadlineTargetIndex target) = some i ↔
    ∃ entry, heap.items[i]? = some entry ∧ entry.target = target
  absent : ∀ target, heap.positions (deadlineTargetIndex target) = none ↔ target ∉ map

structure DeadlineHeap.Sound (heap : DeadlineHeap τ κ) (map : DeadlineMap τ) : Prop where
  indexed : heap.view.Indexed
  ordered : IndexedHeap.Ordered heap.view.entries
  find : ∀ target, heap.view.find target = map.lookup target

variable {heap : DeadlineHeap τ κ} {map : DeadlineMap τ}

omit [DecidableEq κ] in
theorem DeadlineHeap.Sound.represents (h : heap.Sound map) : heap.Represents map := by
  constructor
  · intro target expiresAtNs
    rw [← h.find, h.indexed.find_eq_some_iff]
    rfl
  · intro target hmem
    obtain ⟨expiresAtNs, hlookup⟩ := Option.isSome_iff_exists.mp (Finmap.lookup_isSome.mpr hmem)
    have hentries := h.indexed.entriesOf_eq target
    rw [h.find, hlookup] at hentries
    exact ⟨expiresAtNs, hentries⟩
  · intro target i
    constructor
    · exact h.indexed.stored target i
    · rintro ⟨entry, hentry, rfl⟩
      exact h.indexed.placed i entry hentry
  · intro target
    rw [← Finmap.lookup_eq_none, ← h.find]
    unfold IndexedHeap.find
    constructor
    · intro hnone
      rw [view_index, hnone]
      rfl
    · intro hnone
      cases hindex : heap.positions (deadlineTargetIndex target) with
      | none => rfl
      | some i =>
        obtain ⟨entry, hentry, rfl⟩ := h.indexed.stored target i hindex
        rw [view_index, hindex, Option.bind_some, hentry] at hnone
        cases hnone

variable {heap' : DeadlineHeap τ κ} {target : τ}

omit [DecidableEq κ] in
theorem DeadlineHeap.Sound.of_view_eq (h : heap.Sound map) (hview : heap'.view = heap.view) :
    heap'.Sound map := by
  constructor
  · rw [hview]
    exact h.indexed
  · rw [hview]
    exact h.ordered
  · rw [hview]
    exact h.find

omit [DecidableEq κ] in
theorem DeadlineHeap.Sound.peek_none (h : heap.Sound map) (hpeek : heap.view.peek = none) :
    map = ∅ := by
  have hempty : heap.items = [] := List.head?_eq_none_iff.mp hpeek
  refine Finmap.ext_lookup fun target => ?_
  rw [Finmap.lookup_empty]
  refine Option.eq_none_iff_forall_ne_some.mpr fun expiresAtNs hlookup => ?_
  have hmem := (h.represents.lookup target expiresAtNs).mp hlookup
  rw [hempty] at hmem
  cases hmem

omit [DecidableEq κ] in
theorem DeadlineHeap.Sound.peek_some (h : heap.Sound map) {entry : DeadlineEntry τ}
    (hpeek : heap.view.peek = some entry) : Earliest map entry := by
  have hmem : entry ∈ heap.items := List.mem_of_head? hpeek
  have hfirst : heap.items[0]? = some entry := by
    rw [← List.head?_eq_getElem?]
    exact hpeek
  refine ⟨(h.represents.lookup entry.target entry.key).mpr hmem, ?_⟩
  intro target expiresAtNs hlookup
  exact h.ordered.first_le hfirst _ ((h.represents.lookup target expiresAtNs).mp hlookup)

variable {expiresAtNs : ℕ} {oom : Bool}

omit [DecidableEq κ] in
theorem DeadlineHeap.Sound.insert (h : heap.Sound map)
    (hinsert : heap.view.insertOrUpdate target expiresAtNs oom = some heap'.view) :
    heap'.Sound (map.insert target expiresAtNs) := by
  obtain ⟨hindexed, hfind⟩ := h.indexed.insertOrUpdate hinsert
  refine ⟨hindexed, h.ordered.insertOrUpdate hinsert, fun other => ?_⟩
  rw [hfind]
  by_cases hother : other = target
  · rw [hother, Function.update_self, Finmap.lookup_insert]
  · rw [Function.update_of_ne hother, Finmap.lookup_insert_of_ne _ hother, h.find]

omit [DecidableEq κ] in
theorem DeadlineHeap.Sound.erase (h : heap.Sound map)
    (hremove : (heap.view.remove target).1 = heap'.view) : heap'.Sound (map.erase target) := by
  obtain ⟨hindexed, hfind⟩ := h.indexed.remove target
  have hordered := h.ordered.remove target
  rw [hremove] at hindexed hfind hordered
  refine ⟨hindexed, hordered, fun other => ?_⟩
  rw [hfind]
  by_cases hother : other = target
  · rw [hother, Function.update_self, Finmap.lookup_erase]
  · rw [Function.update_of_ne hother, Finmap.lookup_erase_ne hother, h.find]

omit [DecidableEq κ] in
theorem DeadlineHeap.Sound.index_eq_none (h : heap.Sound map) :
    heap.view.index target = none ↔ target ∉ map :=
  h.represents.absent target

omit [DecidableEq κ] in
theorem DeadlineHeap.Sound.room {heap' : IndexedHeap ℕ τ} (h : heap.Sound map)
    (hinsert : heap.view.insertOrUpdate target expiresAtNs oom =
      some heap') (hoom : oom = true) : target ∈ map := by
  by_contra habsent
  have hnone := h.index_eq_none.mpr habsent
  unfold IndexedHeap.insertOrUpdate at hinsert
  rw [hnone] at hinsert
  simp [hoom] at hinsert

theorem perform_spec (h : heap.Sound map) (operation : Operation τ) :
    wp (perform operation) (fun answer heap' =>
      ∃ map', MapStep map operation answer map' ∧ heap'.Sound map') never heap := by
  cases operation with
  | insertOrUpdate target expiresAtNs oom =>
    unfold perform
    simp only [wp_tryCatch, wp_bind, wp_pure]
    refine wp_mono (deadlineHeapInsertOrUpdate_spec h.indexed target expiresAtNs oom) ?_ ?_
    · intro _ heap' hinsert
      exact ⟨_, .inserted target expiresAtNs oom (h.room hinsert), h.insert hinsert⟩
    · rintro err heap' ⟨rfl, rfl, habsent, rfl⟩
      exact ⟨map, .outOfMemory target expiresAtNs (h.index_eq_none.mp habsent), h⟩
  | remove target =>
    unfold perform
    rw [wp_map]
    refine wp_ends (deadlineHeapRemove_spec h.indexed target) fun found heap' hremove => ?_
    have hfound : found = decide (target ∈ map) := by
      have hremoved := h.indexed.remove_found target
      rw [hremove, h.find] at hremoved
      rw [Bool.eq_iff_iff, decide_eq_true_iff, ← Finmap.lookup_isSome, ← hremoved]
    rw [hfound]
    refine ⟨_, .removed target, h.erase ?_⟩
    rw [hremove]
  | peek =>
    unfold perform
    rw [wp_map]
    refine wp_ends deadlineHeapPeek_spec ?_
    rintro entry heap' ⟨rfl, rfl⟩
    cases hpeek : heap'.view.peek with
    | none => exact ⟨map, .peekEmpty (h.peek_none hpeek), h⟩
    | some entry => exact ⟨map, .peek entry (h.peek_some hpeek), h⟩
  | pop =>
    unfold perform
    rw [wp_map]
    refine wp_ends (deadlineHeapPop_spec h.indexed) ?_
    rintro entry heap' ⟨rfl, hheap'⟩
    cases hpeek : heap.view.peek with
    | none =>
      rw [hpeek] at hheap'
      exact ⟨map, .popEmpty (h.peek_none hpeek), h.of_view_eq hheap'⟩
    | some entry =>
      rw [hpeek] at hheap'
      exact ⟨_, .pop entry (h.peek_some hpeek), h.erase hheap'.symm⟩

theorem performAll_spec (h : heap.Sound map) (operations : List (Operation τ)) :
    wp (performAll operations) (fun answers heap' =>
      ∃ map', MapRun map operations answers map' ∧ heap'.Sound map') never heap := by
  induction operations generalizing heap map with
  | nil => exact ⟨map, .nil map, h⟩
  | cons operation rest ih =>
    simp only [performAll, wp_bind, wp_pure]
    refine wp_ends (perform_spec h operation) ?_
    rintro answer heap₁ ⟨map₁, hstep, hsound⟩
    refine wp_ends (ih hsound) ?_
    rintro answers heap₂ ⟨map₂, hrun, hsound⟩
    exact ⟨map₂, .cons hstep hrun, hsound⟩

omit [DecidableEq κ] in
theorem empty_sound : ({} : DeadlineHeap τ κ).Sound ∅ := by
  refine ⟨IndexedHeap.empty_indexed, ?_, fun _ => rfl⟩
  intro child parent _ x y hx
  simp at hx

theorem performAll_represents (operations : List (Operation τ)) :
    ∃ answers heap map, (performAll operations).run ({} : DeadlineHeap τ κ) = .ok answers heap ∧
      MapRun ∅ operations answers map ∧ heap.Represents map := by
  obtain ⟨answers, heap, hrun, map, hmap, hsound⟩ :=
    ok_of_wp (performAll_spec empty_sound operations)
  exact ⟨answers, heap, map, hrun, hmap, hsound.represents⟩

end Map

/-! ## The targets of the two heaps -/

namespace Client

/-- Numbers stand for pointers. -/
inductive DeadlineTarget where
  | operation (operation : ℕ)
  | clientStream (stream : ℕ)
  | tlsHandshake (impl : ℕ)
  | reconnect (impl : ℕ)
  deriving DecidableEq, Repr

inductive IndexField where
  | operationDeadlineHeapIndex (operation : ℕ)
  | streamDeadlineHeapIndex (stream : ℕ)
  | implDeadlineHeapIndex (impl : ℕ)
  | implReconnectHeapIndex (impl : ℕ)
  deriving DecidableEq, Repr

def deadlineTargetIndex : DeadlineTarget → IndexField
  | .operation operation => .operationDeadlineHeapIndex operation
  | .clientStream stream => .streamDeadlineHeapIndex stream
  | .tlsHandshake impl => .implDeadlineHeapIndex impl
  | .reconnect impl => .implReconnectHeapIndex impl

def deadlineTargetsEqual : DeadlineTarget → DeadlineTarget → Bool
  | .operation operation, .operation other => operation = other
  | .clientStream stream, .clientStream other => stream = other
  | .tlsHandshake impl, .tlsHandshake other => impl = other
  | .reconnect impl, .reconnect other => impl = other
  | _, _ => false

instance : Deadline.DeadlineTarget DeadlineTarget IndexField where
  deadlineTargetIndex := deadlineTargetIndex
  deadlineTargetsEqual := deadlineTargetsEqual
  index_injective a b h := by cases a <;> cases b <;> simp_all [deadlineTargetIndex]
  targetsEqual_iff a b := by cases a <;> cases b <;> simp [deadlineTargetsEqual]

end Client

namespace Server

inductive DeadlineTarget where
  | stream (stream : ℕ)
  | connection (connection : ℕ)
  deriving DecidableEq, Repr

inductive IndexField where
  | streamDeadlineHeapIndex (stream : ℕ)
  | connectionDeadlineHeapIndex (connection : ℕ)
  deriving DecidableEq, Repr

def deadlineTargetIndex : DeadlineTarget → IndexField
  | .stream stream => .streamDeadlineHeapIndex stream
  | .connection connection => .connectionDeadlineHeapIndex connection

def deadlineTargetsEqual : DeadlineTarget → DeadlineTarget → Bool
  | .stream stream, .stream other => stream = other
  | .connection connection, .connection other => connection = other
  | _, _ => false

instance : Deadline.DeadlineTarget DeadlineTarget IndexField where
  deadlineTargetIndex := deadlineTargetIndex
  deadlineTargetsEqual := deadlineTargetsEqual
  index_injective a b h := by cases a <;> cases b <;> simp_all [deadlineTargetIndex]
  targetsEqual_iff a b := by cases a <;> cases b <;> simp [deadlineTargetsEqual]

end Server

/-- Both heaps, from the empty heap and over any operations, run without a fault, answer as the
finite map from targets to expiry times does, and represent that map. -/
theorem deadline_heaps :
    (∀ operations : List (Operation Client.DeadlineTarget), ∃ answers heap map,
      (performAll operations).run ({} : DeadlineHeap _ Client.IndexField) = .ok answers heap ∧
        MapRun ∅ operations answers map ∧ heap.Represents map) ∧
    ∀ operations : List (Operation Server.DeadlineTarget), ∃ answers heap map,
      (performAll operations).run ({} : DeadlineHeap _ Server.IndexField) = .ok answers heap ∧
        MapRun ∅ operations answers map ∧ heap.Represents map :=
  ⟨performAll_represents, performAll_represents⟩

end GrpcLite.Deadline
