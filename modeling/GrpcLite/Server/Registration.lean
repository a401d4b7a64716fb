import GrpcLite.Channel.Rpcs
import GrpcLite.Server.Shutdown
import Mathlib.Logic.Function.Basic

/-!
# Registering the handlers of a server

`registerUnary` and `registerStream` insert a path reactor by reactor.  When an insertion fails, the
path is taken back from the reactors before it, so that all reactors keep the same tables.
-/

namespace GrpcLite.Registration

abbrev Table (H : Type) := Bytes → Option H

structure Reactor (U S : Type) where
  handlers : Table U
  streamHandlers : Table S

structure Slot (R H : Type) where
  table : R → Table H
  store : R → Table H → R
  table_store : ∀ r t, table (store r t) = t
  store_store : ∀ r t t', store (store r t) t' = store r t'
  store_table : ∀ r, store r (table r) = r

inductive RegisterError where
  | serverAlreadyStarted
  | invalidMethodPath
  | methodAlreadyRegistered
  | outOfMemory
  deriving DecidableEq, Repr

namespace Slot

variable {R H : Type} (slot : Slot R H) (path : Bytes)

def put (handler : H) (reactor : R) : R :=
  slot.store reactor (Function.update (slot.table reactor) path (some handler))

def remove (reactor : R) : R := slot.store reactor (Function.update (slot.table reactor) path none)

/-- `none` if a reactor does not have the path, whose removed entry the source unwraps. -/
def rollbackRegistration (reactors : List R) : Option (List R) :=
  reactors.mapM fun reactor =>
    if (slot.table reactor path).isSome then some (slot.remove path reactor) else none

/-- The loop over the reactors.  An insertion copies the path and grows the hash map; `faults` says
which of these allocations fail.  An error has the tables after the rollback. -/
def insertAll (handler : H) : List R → List R → List Bool → Except (Option (List R)) (List R)
  | inserted, [], _ => .ok inserted
  | inserted, reactor :: rest, faults =>
    if faults.headD false ∨ faults.tail.headD false then
      .error ((slot.rollbackRegistration path inserted).map (· ++ reactor :: rest))
    else insertAll handler (inserted ++ [slot.put path handler reactor]) rest (faults.drop 2)

end Slot

/-- `impl` is the first reactor of the coordinator.  `trapped` says that a rollback has unwrapped an
entry that was not there. -/
structure Server (U S : Type) where
  state : Server.State := .initialized
  impl : Reactor U S
  others : List (Reactor U S)
  trapped : Bool := false

variable {U S H : Type}

def Server.withReactors (s : Server U S) : List (Reactor U S) → Server U S
  | impl :: others => { s with impl := impl, others := others }
  | [] => s

def register (slot : Slot (Reactor U S) H) (s : Server U S) (path : Bytes) (handler : H)
    (faults : List Bool) : Option RegisterError × Server U S :=
  if s.state ≠ .initialized then (some .serverAlreadyStarted, s)
  else if !Channel.isValidMethodPath path then (some .invalidMethodPath, s)
  else if (s.impl.handlers path).isSome ∨ (s.impl.streamHandlers path).isSome then
    (some .methodAlreadyRegistered, s)
  else
    match slot.insertAll path handler [] (s.impl :: s.others) faults with
    | .ok reactors => (none, s.withReactors reactors)
    | .error (some reactors) => (some .outOfMemory, s.withReactors reactors)
    | .error none => (some .outOfMemory, { s with trapped := true })

def unarySlot : Slot (Reactor U S) U where
  table reactor := reactor.handlers
  store reactor table := { reactor with handlers := table }
  table_store _ _ := rfl
  store_store _ _ _ := rfl
  store_table _ := rfl

def streamSlot : Slot (Reactor U S) S where
  table reactor := reactor.streamHandlers
  store reactor table := { reactor with streamHandlers := table }
  table_store _ _ := rfl
  store_store _ _ _ := rfl
  store_table _ := rfl

def registerUnary (s : Server U S) (path : Bytes) (handler : U) (faults : List Bool) :
    Option RegisterError × Server U S := register unarySlot s path handler faults

def registerStream (s : Server U S) (path : Bytes) (handler : S) (faults : List Bool) :
    Option RegisterError × Server U S := register streamSlot s path handler faults

inductive Call (U S : Type) where
  | unary (path : Bytes) (handler : U) (faults : List Bool)
  | stream (path : Bytes) (handler : S) (faults : List Bool)

def perform (s : Server U S) : Call U S → Option RegisterError × Server U S
  | .unary path handler faults => registerUnary s path handler faults
  | .stream path handler faults => registerStream s path handler faults

def step (s : Server U S) (call : Call U S) : Server U S := (perform s call).2

/-! ## One registration -/

namespace Slot

variable {R : Type} (slot : Slot R H) {path : Bytes}

theorem remove_put {reactor : R} (hnew : slot.table reactor path = none) (handler : H) :
    slot.remove path (slot.put path handler reactor) = reactor := by
  unfold remove put
  rw [slot.table_store, slot.store_store, Function.update_idem, ← hnew, Function.update_eq_self,
    slot.store_table]

theorem rollbackRegistration_put {reactors : List R}
    (hnew : ∀ reactor ∈ reactors, slot.table reactor path = none) (handler : H) :
    slot.rollbackRegistration path (reactors.map (slot.put path handler)) = some reactors := by
  unfold rollbackRegistration
  induction reactors with
  | nil => rfl
  | cons reactor rest ih =>
    have hput : slot.table (slot.put path handler reactor) path = some handler := by
      unfold put
      rw [slot.table_store, Function.update_self]
    have hrest := ih fun other hmem => hnew other (List.mem_cons_of_mem _ hmem)
    rw [List.map_cons, List.mapM_cons, hrest, hput,
      slot.remove_put (hnew reactor List.mem_cons_self)]
    rfl

theorem insertAll_cases {inserted rest : List R}
    (hnew : ∀ reactor ∈ inserted ++ rest, slot.table reactor path = none) (handler : H)
    (faults : List Bool) :
    slot.insertAll path handler (inserted.map (slot.put path handler)) rest faults =
        .ok ((inserted ++ rest).map (slot.put path handler)) ∨
      slot.insertAll path handler (inserted.map (slot.put path handler)) rest faults =
        .error (some (inserted ++ rest)) := by
  induction rest generalizing inserted faults with
  | nil => exact .inl (by rw [insertAll, List.append_nil])
  | cons reactor rest ih =>
    rw [insertAll]
    split
    · have hinserted : ∀ other ∈ inserted, slot.table other path = none :=
        fun other hmem => hnew other (List.mem_append_left _ hmem)
      exact .inr (by rw [slot.rollbackRegistration_put hinserted]; rfl)
    · have hnext := @ih (inserted ++ [reactor]) (by simpa using hnew) (faults.drop 2)
      simpa using hnext

end Slot

/-- All reactors have the same tables, and no path is in both. -/
structure Server.Consistent (s : Server U S) : Prop where
  same : ∀ reactor ∈ s.others, reactor = s.impl
  disjoint : ∀ path, s.impl.handlers path = none ∨ s.impl.streamHandlers path = none
  sound : s.trapped = false

def Server.add (s : Server U S) (slot : Slot (Reactor U S) H) (path : Bytes) (handler : H) :
    Server U S :=
  { s with
    impl := slot.put path handler s.impl
    others := s.others.map (slot.put path handler) }

variable {s : Server U S}

theorem register_cases (h : s.Consistent) {slot : Slot (Reactor U S) H} {path : Bytes} (handler : H)
    (faults : List Bool) (htable : ∀ reactor : Reactor U S, reactor.handlers path = none →
      reactor.streamHandlers path = none → slot.table reactor path = none) :
    (∃ error, register slot s path handler faults = (some error, s)) ∨
      register slot s path handler faults = (none, s.add slot path handler) ∧
        s.impl.handlers path = none ∧ s.impl.streamHandlers path = none := by
  unfold register
  split_ifs with hstate hvalid hknown
  · exact .inl ⟨_, rfl⟩
  · exact .inl ⟨_, rfl⟩
  · exact .inl ⟨_, rfl⟩
  · simp only [not_or, Bool.not_eq_true, Option.isSome_eq_false_iff, Option.isNone_iff_eq_none]
      at hknown
    have hnew : ∀ reactor ∈ [] ++ s.impl :: s.others, slot.table reactor path = none := by
      intro reactor hmem
      obtain rfl | hmem := List.mem_cons.mp hmem
      · exact htable _ hknown.1 hknown.2
      · rw [h.same reactor hmem]
        exact htable _ hknown.1 hknown.2
    rcases slot.insertAll_cases hnew handler faults with hok | herror
    · rw [List.map_nil] at hok
      rw [hok]
      exact .inr ⟨rfl, hknown⟩
    · rw [List.map_nil] at herror
      rw [herror]
      exact .inl ⟨_, rfl⟩

/-! ## Sequences of registrations -/

def Call.path : Call U S → Bytes
  | .unary path _ _ | .stream path _ _ => path

/-- The server with the handler of a call in the table of its kind. -/
def Server.with (s : Server U S) : Call U S → Server U S
  | .unary path handler _ => s.add unarySlot path handler
  | .stream path handler _ => s.add streamSlot path handler

theorem perform_cases (h : s.Consistent) (call : Call U S) :
    (∃ error, perform s call = (some error, s)) ∨ perform s call = (none, s.with call) ∧
      s.impl.handlers call.path = none ∧ s.impl.streamHandlers call.path = none := by
  cases call with
  | unary path handler faults => exact register_cases h handler faults fun _ hunary _ => hunary
  | stream path handler faults => exact register_cases h handler faults fun _ _ hstream => hstream

theorem Server.Consistent.with (h : s.Consistent) {call : Call U S}
    (hunary : s.impl.handlers call.path = none) (hstream : s.impl.streamHandlers call.path = none) :
    (s.with call).Consistent := by
  have hsame : ∀ put : Reactor U S → Reactor U S, ∀ reactor ∈ s.others.map put,
      reactor = put s.impl := by
    intro put reactor hmem
    obtain ⟨other, hother, rfl⟩ := List.mem_map.mp hmem
    rw [h.same other hother]
  cases call with
  | unary path =>
    refine ⟨hsame _, fun other => ?_, h.sound⟩
    by_cases hpath : other = path
    · exact .inr (hpath ▸ hstream)
    · exact (h.disjoint other).imp_left fun hnone => (Function.update_of_ne hpath _ _).trans hnone
  | stream path =>
    refine ⟨hsame _, fun other => ?_, h.sound⟩
    by_cases hpath : other = path
    · exact .inl (hpath ▸ hunary)
    · exact (h.disjoint other).imp_right fun hnone => (Function.update_of_ne hpath _ _).trans hnone

theorem Server.Consistent.step (h : s.Consistent) (call : Call U S) : (step s call).Consistent := by
  unfold Registration.step
  rcases perform_cases h call with ⟨error, hfailed⟩ | ⟨hadded, hunary, hstream⟩
  · rw [hfailed]
    exact h
  · rw [hadded]
    exact h.with hunary hstream

/-- A server of any number of reactors on which nothing is registered. -/
structure Server.IsNew (s : Server U S) : Prop where
  impl : s.impl = ⟨fun _ => none, fun _ => none⟩
  same : ∀ reactor ∈ s.others, reactor = s.impl
  sound : s.trapped = false

/-- After any calls all reactors have the same tables, which share no path; a call that fails
changes nothing, and one that succeeds adds its path, which no reactor had, and nothing else. -/
theorem registration_consistent {s : Server U S} (hs : s.IsNew) (calls : List (Call U S))
    (call : Call U S) :
    (Run.final step s calls).Consistent ∧
      ((∃ error, perform (Run.final step s calls) call = (some error, Run.final step s calls)) ∨
        perform (Run.final step s calls) call = (none, (Run.final step s calls).with call) ∧
          ∀ reactor ∈ (Run.final step s calls).impl :: (Run.final step s calls).others,
            reactor.handlers call.path = none ∧ reactor.streamHandlers call.path = none) := by
  have hnew : s.Consistent := ⟨hs.same, fun _ => .inl (by rw [hs.impl]), hs.sound⟩
  have h := Run.invariant_always (I := Server.Consistent) (fun _ call h => h.step call) calls hnew
  refine ⟨h, (perform_cases h call).imp_right fun ⟨hadded, hunary, hstream⟩ =>
    ⟨hadded, fun reactor hmem => ?_⟩⟩
  obtain rfl | hmem := List.mem_cons.mp hmem
  · exact ⟨hunary, hstream⟩
  · rw [h.same reactor hmem]
    exact ⟨hunary, hstream⟩

def twoReactors : Server ℕ ℕ :=
  { impl := ⟨fun _ => none, fun _ => none⟩, others := [⟨fun _ => none, fun _ => none⟩] }

/-- The copy of the path for the second reactor fails, and the path is registered again. -/
theorem registration_consistent_twoReactors :
    (Run.final step twoReactors
      [.unary (ascii "/a/b") 1 [false, false, true], .stream (ascii "/a/b") 2 []]).Consistent :=
  (registration_consistent ⟨rfl, by simp [twoReactors], rfl⟩
    [.unary (ascii "/a/b") 1 [false, false, true], .stream (ascii "/a/b") 2 []]
    (.unary (ascii "/a/b") 3 [])).1

end GrpcLite.Registration
