import GrpcLite.Lib.Run
import Mathlib.Algebra.BigOperators.Group.List.Basic
import Mathlib.Algebra.Group.Submonoid.BigOperators

/-!
# Members that share a state

A pool is a shared state with any number of members.  A member joins or acts, one at a time, and
changes the shared state and itself; every interleaving of the members is a run.  The rules are for
invariants of the members and for a shared state that accounts for the sum of what each of them
contributes.
-/

/-- A shared state with its members in the order in which they joined. -/
structure Pool (σ μ : Type) where
  shared : σ
  members : List μ
  deriving DecidableEq, Repr

namespace Pool

inductive Event (κ ε : Type) where
  | join (k : κ)
  | act (i : ℕ) (e : ε)
  deriving DecidableEq, Repr

variable {σ μ κ ε M N : Type}

section Steps

variable (enter : σ → κ → σ × μ) (act : σ → μ → ε → σ × μ)

def step (p : Pool σ μ) : Event κ ε → Pool σ μ
  | .join k => ⟨(enter p.shared k).1, p.members ++ [(enter p.shared k).2]⟩
  | .act i e =>
    match p.members[i]? with
    | none => p
    | some m => ⟨(act p.shared m e).1, p.members.set i (act p.shared m e).2⟩

end Steps

def total [AddCommMonoid M] (weight : μ → M) (members : List μ) : M := (members.map weight).sum

section Total

variable [AddCommMonoid M] (weight : μ → M)

@[simp] theorem total_nil : total weight [] = 0 := rfl

@[simp] theorem total_cons (m : μ) (members : List μ) :
    total weight (m :: members) = weight m + total weight members := by simp [total]

@[simp] theorem total_append (members others : List μ) :
    total weight (members ++ others) = total weight members + total weight others := by
  simp [total]

variable {members : List μ}

/-- One member against the others. -/
theorem total_set {i : ℕ} {m : μ} (hm : members[i]? = some m) (m' : μ) :
    total weight (members.set i m') = total weight (members.eraseIdx i) + weight m' := by
  induction members generalizing i with
  | nil => simp at hm
  | cons first rest ih =>
    cases i with
    | zero => simp [add_comm]
    | succ i => simp [ih (i := i) (by simpa using hm), add_assoc]

theorem total_eq {i : ℕ} {m : μ} (hm : members[i]? = some m) :
    total weight members = total weight (members.eraseIdx i) + weight m := by
  obtain ⟨hi, rfl⟩ := List.getElem?_eq_some_iff.mp hm
  rw [← total_set weight hm, List.set_getElem_self]

theorem total_mem {K : AddSubmonoid M} (hmembers : ∀ m ∈ members, weight m ∈ K) :
    total weight members ∈ K := by
  refine list_sum_mem fun x hx => ?_
  obtain ⟨m, hm, rfl⟩ := List.mem_map.mp hx
  exact hmembers m hm

theorem total_congr {weight weight' : μ → M} (h : ∀ m ∈ members, weight m = weight' m) :
    total weight members = total weight' members := by
  unfold total
  rw [List.map_congr_left h]

theorem total_hom [AddCommMonoid N] (f : M →+ N) (members : List μ) :
    f (total weight members) = total (fun m => f (weight m)) members := by
  induction members with
  | nil => exact map_zero f
  | cons m rest ih => rw [total_cons, total_cons, map_add, ih]

theorem total_eq_countP (p : μ → Bool) (members : List μ) :
    total (fun m => if p m then 1 else 0) members = members.countP p := by
  induction members with
  | nil => rfl
  | cons m rest ih =>
    rw [total_cons, ih, List.countP_cons]
    omega

end Total

/-! ## Rules -/

section Rules

variable {enter : σ → κ → σ × μ} {act : σ → μ → ε → σ × μ} {J : μ → Prop} {p : Pool σ μ}

theorem mem_step {event : Event κ ε} {m : μ} (hm : m ∈ (step enter act p event).members) :
    m ∈ p.members ∨ (∃ k, m = (enter p.shared k).2) ∨
      ∃ old ∈ p.members, ∃ e, m = (act p.shared old e).2 := by
  cases event with
  | join k =>
    obtain hold | hnew := List.mem_append.mp hm
    · exact .inl hold
    · exact .inr (.inl ⟨k, by simpa using hnew⟩)
  | act i e =>
    simp only [step] at hm
    split at hm
    · exact .inl hm
    · rename_i old hold
      obtain hother | hnew := List.mem_or_eq_of_mem_set hm
      · exact .inl hother
      · exact .inr (.inr ⟨old, List.mem_of_getElem? hold, e, hnew⟩)

/-- What a member has when it joins and keeps when it acts, every member has. -/
theorem members_invariant (henter : ∀ s k, J (enter s k).2)
    (hact : ∀ s m e, J m → J (act s m e).2) (hp : ∀ m ∈ p.members, J m)
    (events : List (Event κ ε)) : ∀ m ∈ (Run.final (step enter act) p events).members, J m := by
  refine Run.invariant_always (I := fun p : Pool σ μ => ∀ m ∈ p.members, J m) ?_ events hp
  intro p event hall m hm
  obtain hold | ⟨k, rfl⟩ | ⟨old, hold, e, rfl⟩ := mem_step hm
  · exact hall m hold
  · exact henter p.shared k
  · exact hact p.shared old e (hall old hold)

/-- The shared state accounts for the total when each action exchanges the member's contribution,
whatever the others contribute.  `K` bounds what any number of members contribute. -/
theorem accounts_invariant [AddCommMonoid M] {weight : μ → M} {R : σ → M → Prop}
    (K : AddSubmonoid M) (hK : ∀ m, J m → weight m ∈ K)
    (henter : ∀ s k, J (enter s k).2) (hact : ∀ s m e, J m → J (act s m e).2)
    (hjoin : ∀ s k, ∀ n ∈ K, R s n → R (enter s k).1 (n + weight (enter s k).2))
    (hexchange : ∀ s m e, ∀ n ∈ K, J m → R s (n + weight m) →
      R (act s m e).1 (n + weight (act s m e).2))
    (hp : ∀ m ∈ p.members, J m) (hR : R p.shared (total weight p.members))
    (events : List (Event κ ε)) :
    R (Run.final (step enter act) p events).shared
      (total weight (Run.final (step enter act) p events).members) := by
  have hboth : (∀ m ∈ (Run.final (step enter act) p events).members, J m) ∧
      R (Run.final (step enter act) p events).shared
        (total weight (Run.final (step enter act) p events).members) := by
    refine Run.invariant_always (I := fun p : Pool σ μ =>
      (∀ m ∈ p.members, J m) ∧ R p.shared (total weight p.members)) ?_ events ⟨hp, hR⟩
    rintro p event ⟨hall, hcounts⟩
    refine ⟨members_invariant henter hact hall [event], ?_⟩
    cases event with
    | join k =>
      have hmem : total weight p.members ∈ K := total_mem weight fun m hm => hK m (hall m hm)
      simpa [step] using hjoin p.shared k _ hmem hcounts
    | act i e =>
      simp only [step]
      split
      · exact hcounts
      · rename_i m hm
        have hothers : total weight (p.members.eraseIdx i) ∈ K :=
          total_mem weight fun m hm => hK m (hall m (List.mem_of_mem_eraseIdx hm))
        rw [total_eq weight hm] at hcounts
        rw [total_set weight hm]
        exact hexchange p.shared m e _ hothers (hall m (List.mem_of_getElem? hm)) hcounts
  exact hboth.2

end Rules

end Pool
