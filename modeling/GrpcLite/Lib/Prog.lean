import Mathlib.Algebra.Order.Group.Nat
import Mathlib.Tactic.Common

/-!
# Rules for fallible state-passing programs

A program is a term of `EStateM ε σ α`: it reads and writes a state `σ` and ends in a value or
in an error, keeping the state it has reached in both cases.  `wp` is its weakest precondition,
`Exits` the special case of an invariant, and `Keeps` and `Ends` that of an invariant that holds at
both exits and that of a program that does not fail.
-/

namespace Prog

variable {ε σ α β : Type}

/-- The run of `x` from `s` ends in a value with `Q` or in an error with `E`. -/
def wp (x : EStateM ε σ α) (Q : α → σ → Prop) (E : ε → σ → Prop) (s : σ) : Prop :=
  match x s with
  | .ok a s' => Q a s'
  | .error e s' => E e s'

def exec (x : EStateM ε σ α) (s : σ) : σ :=
  match x s with
  | .ok _ s' => s'
  | .error _ s' => s'

abbrev never : ε → σ → Prop := fun _ _ => False

def when (p : Prop) [Decidable p] (x : EStateM ε σ Unit) : EStateM ε σ Unit :=
  if p then x else pure ()

def ensure (p : Prop) [Decidable p] (e : ε) : EStateM ε σ Unit :=
  if p then pure () else throw e

section Rules

variable {Q : α → σ → Prop} {E : ε → σ → Prop} {s : σ}

@[simp] theorem wp_pure (a : α) : wp (pure a : EStateM ε σ α) Q E s ↔ Q a s := Iff.rfl

@[simp] theorem wp_throw (e : ε) : wp (throw e : EStateM ε σ α) Q E s ↔ E e s := Iff.rfl

@[simp] theorem wp_get {Q : σ → σ → Prop} :
    wp (get : EStateM ε σ σ) Q E s ↔ Q s s := Iff.rfl

@[simp] theorem wp_set {Q : PUnit → σ → Prop} (t : σ) :
    wp (set t : EStateM ε σ PUnit) Q E s ↔ Q ⟨⟩ t := Iff.rfl

@[simp] theorem wp_modify {Q : PUnit → σ → Prop} (f : σ → σ) :
    wp (modify f : EStateM ε σ PUnit) Q E s ↔ Q ⟨⟩ (f s) := Iff.rfl

@[simp] theorem wp_bind {Q : β → σ → Prop} (x : EStateM ε σ α) (f : α → EStateM ε σ β) :
    wp (x >>= f) Q E s ↔ wp x (fun a t => wp (f a) Q E t) E s := by
  show (match EStateM.bind x f s with | .ok a t => Q a t | .error e t => E e t) ↔ _
  unfold EStateM.bind wp
  cases x s with
  | ok => rfl
  | error => rfl

theorem wp_get_bind {Q : β → σ → Prop} (f : σ → EStateM ε σ β) :
    wp (get >>= f) Q E s ↔ wp (f s) Q E s :=
  wp_bind get f

theorem wp_modify_bind {Q : β → σ → Prop} (g : σ → σ) (f : PUnit → EStateM ε σ β) :
    wp (modify g >>= f) Q E s ↔ wp (f ⟨⟩) Q E (g s) :=
  wp_bind (modify g) f

@[simp] theorem wp_map {Q : β → σ → Prop} (f : α → β) (x : EStateM ε σ α) :
    wp (f <$> x) Q E s ↔ wp x (fun a t => Q (f a) t) E s := by
  show (match EStateM.map f x s with | .ok a t => Q a t | .error e t => E e t) ↔ _
  unfold EStateM.map wp
  cases x s with
  | ok => rfl
  | error => rfl

@[simp] theorem wp_tryCatch (x : EStateM ε σ α) (h : ε → EStateM ε σ α) :
    wp (tryCatch x h) Q E s ↔ wp x Q (fun e t => wp (h e) Q E t) s := by
  show (match EStateM.tryCatch x h s with | .ok a t => Q a t | .error e t => E e t) ↔ _
  unfold EStateM.tryCatch wp
  cases x s with
  | ok => rfl
  | error => rfl

variable {p : Prop} {x : EStateM ε σ α}

theorem wp_ite [Decidable p] (x y : EStateM ε σ α) :
    wp (if p then x else y) Q E s ↔ (p → wp x Q E s) ∧ (¬p → wp y Q E s) := by
  by_cases hp : p <;> simp [hp]

theorem wp_when {Q : Unit → σ → Prop} [Decidable p] (x : EStateM ε σ Unit) :
    wp (when p x) Q E s ↔ (p → wp x Q E s) ∧ (¬p → Q () s) :=
  wp_ite x (pure ())

/-- A program that reads the state to decide whether it goes on. -/
theorem wp_get_when {Q : Unit → σ → Prop} {q : σ → Prop} [∀ t, Decidable (q t)]
    (x : σ → EStateM ε σ Unit) : wp (get >>= fun t => when (q t) (x t)) Q E s ↔
      (q s → wp (x s) Q E s) ∧ (¬q s → Q () s) :=
  (wp_get_bind _).trans (wp_when _)

theorem wp_ensure {Q : Unit → σ → Prop} [Decidable p] (e : ε) :
    wp (ensure p e) Q E s ↔ (p → Q () s) ∧ (¬p → E e s) :=
  wp_ite (pure ()) (throw e)

variable {Q' : α → σ → Prop} {E' : ε → σ → Prop} {R : β → σ → Prop} {f : α → EStateM ε σ β}

theorem wp_mono (h : wp x Q E s) (hQ : ∀ a t, Q a t → Q' a t) (hE : ∀ e t, E e t → E' e t) :
    wp x Q' E' s := by
  unfold wp at h ⊢
  cases hx : x s with
  | ok a t => rw [hx] at h; exact hQ a t h
  | error e t => rw [hx] at h; exact hE e t h

/-- The normal exit alone is weakened. -/
theorem wp_imp (h : wp x Q E s) (hQ : ∀ a t, Q a t → Q' a t) : wp x Q' E s :=
  wp_mono h hQ fun _ _ he => he

/-- A program that does not fail may be used under any error condition. -/
theorem wp_ends (h : wp x Q never s) (hQ : ∀ a t, Q a t → Q' a t) : wp x Q' E s :=
  wp_mono h hQ fun _ _ hfalse => hfalse.elim

theorem wp_seq (h : wp x Q E s) (hf : ∀ a t, Q a t → wp (f a) R E t) : wp (x >>= f) R E s :=
  (wp_bind x f).mpr (wp_imp h hf)

theorem wp_ends_seq (h : wp x Q never s)
    (hf : ∀ a t, Q a t → wp (f a) R E t) : wp (x >>= f) R E s :=
  (wp_bind x f).mpr (wp_ends h hf)

theorem wp_of_forall (hQ : ∀ a t, Q a t) (hE : ∀ e t, E e t) : wp x Q E s := by
  unfold wp
  cases x s with
  | ok a t => exact hQ a t
  | error e t => exact hE e t

theorem wp_and (h : wp x Q E s) (h' : wp x Q' E' s) :
    wp x (fun a t => Q a t ∧ Q' a t) (fun e t => E e t ∧ E' e t) s := by
  unfold wp at h h' ⊢
  cases hx : x s with
  | ok | error => rw [hx] at h h'; exact ⟨h, h'⟩

/-- A program that cannot fail ends in a value. -/
theorem ok_of_wp (h : wp x Q never s) : ∃ a s', x.run s = .ok a s' ∧ Q a s' := by
  unfold wp at h
  split at h
  · rename_i a s' hx
    exact ⟨a, s', hx, h⟩
  · exact h.elim

theorem exec_of_wp {I : σ → Prop} (h : wp x (fun _ => I) (fun _ => I) s) : I (exec x s) := by
  unfold wp at h
  unfold exec
  cases hx : x s with
  | ok | error => rw [hx] at h; exact h

end Rules

/-- From a state with `I` the program ends in a value with `I` or in an error with `E`. -/
def Exits (I : σ → Prop) (E : ε → σ → Prop) (x : EStateM ε σ α) : Prop :=
  ∀ s, I s → wp x (fun _ => I) E s

abbrev Keeps (I : σ → Prop) (x : EStateM ε σ α) : Prop := Exits I (fun _ => I) x

abbrev Ends (I : σ → Prop) (x : EStateM ε σ α) : Prop := Exits I never x

namespace Exits

variable {I : σ → Prop} {E : ε → σ → Prop} {x : EStateM ε σ α} {p : Prop}

theorem pure (a : α) : Exits I E (Pure.pure a : EStateM ε σ α) := fun _ hs => hs

theorem throw {e : ε} (he : ∀ s, I s → E e s) : Exits I E (throw e : EStateM ε σ α) := he

theorem get : Exits I E (get : EStateM ε σ σ) := fun _ hs => hs

theorem modify {f : σ → σ} (hf : ∀ s, I s → I (f s)) :
    Exits I E (modify f : EStateM ε σ PUnit) := hf

theorem bind {f : α → EStateM ε σ β} (hx : Exits I E x) (hf : ∀ a, Exits I E (f a)) :
    Exits I E (x >>= f) := by
  intro s hs
  exact wp_seq (hx s hs) fun a t ht => hf a t ht

/-- Errors that are caught do not end the run. -/
theorem tryCatch {h : ε → EStateM ε σ α} (hx : Keeps I x) (hh : ∀ e, Exits I E (h e)) :
    Exits I E (tryCatch x h) := by
  intro s hs
  rw [wp_tryCatch]
  exact wp_mono (hx s hs) (fun _ _ ht => ht) (fun e t ht => hh e t ht)

theorem ite [Decidable p] {y : EStateM ε σ α} (hx : p → Exits I E x) (hy : ¬p → Exits I E y) :
    Exits I E (if p then x else y) := by
  by_cases hp : p
  · simpa only [if_pos hp] using hx hp
  · simpa only [if_neg hp] using hy hp

theorem when [Decidable p] {x : EStateM ε σ Unit} (hx : p → Exits I E x) :
    Exits I E (when p x) :=
  ite hx (fun _ => pure ())

theorem ensure [Decidable p] {e : ε} (he : ∀ s, I s → E e s) :
    Exits I E (ensure p e : EStateM ε σ Unit) :=
  ite (fun _ => pure ()) (fun _ => throw he)

/-- A program that does not fail may be used under any error condition. -/
theorem of_ends (hx : Ends I x) : Exits I E x := fun s hs => wp_ends (hx s hs) fun _ _ ht => ht

end Exits

theorem Ends.keeps {I : σ → Prop} {x : EStateM ε σ α} (hx : Ends I x) : Keeps I x := .of_ends hx

end Prog
