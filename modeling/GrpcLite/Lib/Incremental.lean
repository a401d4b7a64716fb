import Mathlib.Data.List.Basic
import Mathlib.Algebra.Order.Group.Nat
import Mathlib.Tactic.Common

/-!
# Incremental decoders

A decoder takes messages from the front of the input that it holds.  If an answer on some input is
its answer whatever follows, then the messages and the end of a session depend on the input as a
whole, not on how it was cut into chunks.
-/

namespace Incremental

/-- What a decoder makes of its input: it needs more, gives up, or takes a message of this size. -/
inductive Answer (M E : Type) where
  | starved
  | failed (err : E)
  | message (m : M) (size : ℕ)

variable {α M E : Type} (next : List α → Answer M E)

structure Stable : Prop where
  failed : ∀ {input : List α} {err : E} (more : List α),
    next input = .failed err → next (input ++ more) = .failed err
  message : ∀ {input : List α} {m : M} {size : ℕ} (more : List α),
    next input = .message m size → next (input ++ more) = .message m size
  size : ∀ {input : List α} {m : M} {size : ℕ},
    next input = .message m size → 0 < size ∧ size ≤ input.length

/-- The messages of an input, and how it ends: with an error or with the rest that starves. -/
inductive Decodes : List α → List M → Except E (List α) → Prop
  | starved {input : List α} (h : next input = .starved) : Decodes input [] (.ok input)
  | failed {input : List α} {err : E} (h : next input = .failed err) : Decodes input [] (.error err)
  | message {input : List α} {m : M} {size : ℕ} {messages : List M} {outcome : Except E (List α)}
      (h : next input = .message m size) (hrest : Decodes (input.drop size) messages outcome) :
      Decodes input (m :: messages) outcome

/-- A session: each chunk is decoded together with the rest of those before it. -/
inductive Session : List α → List (List α) → List M → Except E (List α) → Prop
  | idle {rest : List α} : Session rest [] [] (.ok rest)
  | stopped {rest chunk : List α} {chunks : List (List α)} {messages : List M} {err : E}
      (h : Decodes next (rest ++ chunk) messages (.error err)) :
      Session rest (chunk :: chunks) messages (.error err)
  | more {rest chunk rest' : List α} {chunks : List (List α)} {messages messages' : List M}
      {outcome : Except E (List α)} (h : Decodes next (rest ++ chunk) messages (.ok rest'))
      (hmore : Session rest' chunks messages' outcome) :
      Session rest (chunk :: chunks) (messages ++ messages') outcome

variable {next}

variable {input : List α} {messages : List M}

theorem Decodes.unique {messages' : List M} {outcome outcome' : Except E (List α)}
    (h : Decodes next input messages outcome) (h' : Decodes next input messages' outcome') :
    messages = messages' ∧ outcome = outcome' := by
  induction h generalizing messages' outcome' with
  | starved hnext =>
    cases h' with
    | starved => exact ⟨rfl, rfl⟩
    | failed hnext' | message hnext' => cases hnext.symm.trans hnext'
  | failed hnext =>
    cases h' with
    | starved hnext' | message hnext' => cases hnext.symm.trans hnext'
    | failed hnext' =>
      cases hnext.symm.trans hnext'
      exact ⟨rfl, rfl⟩
  | message hnext hrest ih =>
    cases h' with
    | starved hnext' | failed hnext' => cases hnext.symm.trans hnext'
    | message hnext' hrest' =>
      cases hnext.symm.trans hnext'
      obtain ⟨rfl, rfl⟩ := ih hrest'
      exact ⟨rfl, rfl⟩

variable {rest : List α}

theorem Decodes.starved_rest (h : Decodes next input messages (.ok rest)) :
    next rest = .starved := by
  generalize houtcome : Except.ok rest = outcome at h
  induction h with
  | starved hnext =>
    cases houtcome
    exact hnext
  | failed => cases houtcome
  | message hnext hrest ih => exact ih houtcome

theorem Decodes.length_le (h : Decodes next input messages (.ok rest)) :
    rest.length ≤ input.length := by
  generalize houtcome : Except.ok rest = outcome at h
  induction h with
  | starved =>
    cases houtcome
    exact Nat.le_refl _
  | failed => cases houtcome
  | message hnext hrest ih =>
    have hdrop := ih houtcome
    rw [List.length_drop] at hdrop
    exact Nat.le_trans hdrop (Nat.sub_le _ _)

section Stability

variable (hstable : Stable next)
include hstable

variable {messages : List M}

variable {input rest : List α} {outcome : Except E (List α)}

/-- What fails on some input fails in the same way on a longer one. -/
theorem Decodes.append_error {err : E} (h : Decodes next input messages (.error err))
    (more : List α) : Decodes next (input ++ more) messages (.error err) := by
  generalize houtcome : Except.error err = outcome at h ⊢
  induction h with
  | starved => cases houtcome
  | failed hnext => exact .failed (hstable.failed more hnext)
  | message hnext hrest ih =>
    refine .message (hstable.message more hnext) ?_
    rw [List.drop_append_of_le_length (hstable.size hnext).2]
    exact ih houtcome

/-- Decoding goes on where the rest starved. -/
theorem Decodes.append_ok (h : Decodes next input messages (.ok rest)) {more : List α}
    {messages' : List M} (hmore : Decodes next (rest ++ more) messages' outcome) :
    Decodes next (input ++ more) (messages ++ messages') outcome := by
  generalize hfirst : Except.ok rest = first at h
  induction h with
  | starved =>
    cases hfirst
    exact hmore
  | failed => cases hfirst
  | message hnext hrest ih =>
    refine .message (hstable.message more hnext) ?_
    rw [List.drop_append_of_le_length (hstable.size hnext).2]
    exact ih hfirst

/-- A session decodes the concatenation of its chunks. -/
theorem Session.decodes {chunks : List (List α)} (h : Session next rest chunks messages outcome)
    (hrest : next rest = .starved) : Decodes next (rest ++ chunks.flatten) messages outcome := by
  induction h with
  | idle =>
    rw [List.flatten_nil, List.append_nil]
    exact .starved hrest
  | stopped hchunk =>
    rw [List.flatten_cons, ← List.append_assoc]
    exact hchunk.append_error hstable _
  | more hchunk hmore ih =>
    rw [List.flatten_cons, ← List.append_assoc]
    exact hchunk.append_ok hstable (ih hchunk.starved_rest)

end Stability

end Incremental
