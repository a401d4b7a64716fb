import GrpcLite.Cpp.BlockingCall

/-!
# What a blocking write reports

The blocking call under every interleaving of its thread with the transport's callbacks, for
every answer the transport's stream may give.  `RunCommand` leaves through the accepted frame,
through an error, or through the stored terminal status; in the last case nothing was accepted
and the stored status, which may be OK, is returned all the same.
-/

namespace GrpcLite.Cpp

structure BlockingSystem where
  thread : Thread := {}
  call : CallState := {}
  deriving DecidableEq, Repr

/-- One event: the application calls a method, the thread runs its next critical section, the
transport runs a callback, or another thread cancels the call. -/
inductive BlockingEvent where
  | begin (op : Op)
  | thread (answer : ErrorCode) (parses : Bool)
  | headers (entries : List Entry)
  | message (payload : Bytes)
  | writable
  | terminal (status : Status) (trailing : List Entry)
  | cancel
  deriving DecidableEq, Repr

namespace BlockingSystem

def step (s : BlockingSystem) : BlockingEvent → BlockingSystem
  | .begin op => if s.thread.pc = .idle then { s with thread := s.thread.begin op } else s
  | .thread answer parses =>
    let (thread, call) := s.thread.next s.call answer parses
    ⟨thread, call⟩
  | .headers entries => { s with call := s.call.onHeaders entries }
  | .message payload => { s with call := s.call.onMessage payload }
  | .writable => { s with call := s.call.onWritable }
  | .terminal status trailing => { s with call := s.call.setTerminal status trailing }
  | .cancel => { s with call := s.call.requestCancel }

end BlockingSystem

namespace Thread

/-- The thread is at a point of `Send` that returns the stored status of a terminal call. -/
def sendReadsTerminal (thread : Thread) : Bool :=
  match thread.pc with
  | .runHead (.send _) => true
  | .runAwaitTerminal (.send _) => true
  | .runAwaitWritable (.send _) _ => true
  | _ => false

def sending (thread : Thread) : Bool :=
  match thread.pc with
  | .runHead (.send _) => true
  | .runCall (.send _) _ => true
  | .runFailed (.send _) _ => true
  | .runAwaitTerminal (.send _) => true
  | .runAwaitWritable (.send _) _ => true
  | _ => false

/-- A failed command was not OK and nothing is accepted before a `Send` returns. -/
def Wf (thread : Thread) : Prop :=
  (thread.sending → thread.accepted = []) ∧
    ∀ command error, thread.pc = .runFailed command error → error ≠ .ok

end Thread

/-- A `Send` that returned OK, or a `Write` that returned true, had its frame accepted exactly
once. -/
def SendRecord.Honest (record : SendRecord) : Prop :=
  (record.status.isOk → record.accepted = [record.payload]) ∧
    (record.written → record.accepted = [record.payload])

/-- The step does not return from `Send` with a stored terminal status that is OK. -/
def NoOkTerminalExit (s : BlockingSystem) : BlockingEvent → Prop
  | .thread _ _ => s.thread.sendReadsTerminal → s.call.terminal → s.call.status.isOk = false
  | _ => True

namespace Thread

variable {thread : Thread}

@[simp] theorem afterWritesDone_sends (thread : Thread) :
    thread.afterWritesDone.sends = thread.sends := by
  unfold afterWritesDone
  split <;> rfl

theorem afterWritesDone_wf (thread : Thread) : thread.afterWritesDone.Wf := by
  cases hkind : thread.kind with
  | clientWriter =>
      by_cases hok : thread.writeStatus.isOk <;> simp [afterWritesDone, hkind, hok, Wf, sending]
  | clientReaderWriter =>
      by_cases hread : thread.readExhausted <;>
        simp [afterWritesDone, hkind, hread, Wf, sending]

theorem begin_sends (op : Op) : (thread.begin op).sends = thread.sends := by
  cases op with
  | write payload => cases payload <;> simp only [begin] <;> split <;> rfl
  | writesDone => simp only [begin, beginWritesDone]; split <;> (try split) <;> rfl
  | read => simp only [begin]; split <;> rfl
  | finish =>
      simp only [begin, beginWritesDone]
      split
      · rfl
      · split
        · simp
        · split <;> simp

theorem begin_wf (hidle : thread.pc = .idle) (op : Op) : (thread.begin op).Wf := by
  have hwf : thread.Wf := by simp [Wf, sending, hidle]
  cases op with
  | write payload =>
      cases payload <;> simp only [begin] <;> split <;> first | exact hwf | simp [Wf, sending]
  | writesDone =>
      simp only [begin, beginWritesDone]
      split
      · exact hwf
      · split
        · simp [Wf, sending]
        · simp [Wf, sending, hidle]
  | read =>
      simp only [begin]
      split
      · exact hwf
      · simp [Wf, sending]
  | finish =>
      simp only [begin, beginWritesDone]
      split
      · exact hwf
      · split
        · exact afterWritesDone_wf _
        · split
          · simp [Wf, sending]
          · exact afterWritesDone_wf _

theorem returnMessage_sends (goal : ReadGoal) (parses : Bool) :
    (thread.returnMessage goal parses).sends = thread.sends := by
  cases goal <;> cases parses <;> rfl

theorem returnMessage_wf (goal : ReadGoal) (parses : Bool) :
    (thread.returnMessage goal parses).Wf := by
  cases goal <;> cases parses <;> simp [returnMessage, Wf, sending]

theorem returnNoMessage_sends (goal : ReadGoal) :
    (thread.returnNoMessage goal).sends = thread.sends := by
  cases goal <;> rfl

theorem returnNoMessage_wf (goal : ReadGoal) : (thread.returnNoMessage goal).Wf := by
  cases goal <;> simp [returnNoMessage, Wf, sending]

theorem returnCommand_wf (command : Command) (status : Status) :
    (thread.returnCommand command status).Wf := by
  cases command with
  | send => simp [returnCommand, Wf, sending]
  | closeSend finishing =>
      cases finishing with
      | false => simp [returnCommand, Wf, sending]
      | true => exact afterWritesDone_wf _

theorem returnCommand_closeSend_sends (finishing : Bool) (status : Status) :
    (thread.returnCommand (.closeSend finishing) status).sends = thread.sends := by
  cases finishing with
  | false => rfl
  | true => exact afterWritesDone_sends _

/-- What a thread step can do to the completed sends: nothing, or one honest record, or, at a
point that reads the terminal status, a record that carries this status and no frame. -/
inductive NextSends (thread : Thread) (call : CallState) (after : List SendRecord) : Prop where
  | same (hsends : after = thread.sends) (hexit : ¬(thread.sendReadsTerminal ∧ call.terminal))
  | honest (record : SendRecord) (hsends : after = thread.sends ++ [record])
      (hrecord : record.Honest) (hexit : ¬(thread.sendReadsTerminal ∧ call.terminal))
  | terminal (payload : Bytes)
      (hsends : after = thread.sends ++ [⟨payload, [], call.status, call.status.isOk⟩])
      (hread : thread.sendReadsTerminal) (hterminal : call.terminal)

variable (hwf : thread.Wf)

include hwf

/-- The three exits of `RunCommand` that return the stored status. -/
theorem terminalExit_sends {command : Command} {call : CallState}
    (hpc : thread.pc = .runHead command ∨ thread.pc = .runAwaitTerminal command ∨
      ∃ generation, thread.pc = .runAwaitWritable command generation) (hterminal : call.terminal) :
    NextSends thread call (thread.returnCommand command call.status).sends := by
  cases command with
  | send payload =>
      have hsending : thread.sending ∧ thread.sendReadsTerminal := by
        rcases hpc with hpc | hpc | ⟨_, hpc⟩ <;> simp [sending, sendReadsTerminal, hpc]
      refine .terminal payload ?_ hsending.2 hterminal
      simp [returnCommand, hwf.1 hsending.1]
  | closeSend =>
      refine .same (returnCommand_closeSend_sends _ _) ?_
      rcases hpc with hpc | hpc | ⟨_, hpc⟩ <;> simp [sendReadsTerminal, hpc]

/-- The exit of `RunCommand` after the transport took the command. -/
theorem acceptedExit_sends {command : Command} {generation : ℕ}
    (hpc : thread.pc = .runCall command generation) (call : CallState) (answer : ErrorCode)
    (parses : Bool) : NextSends thread call (thread.next call answer parses).1.sends := by
  have hexit : ¬(thread.sendReadsTerminal ∧ call.terminal) := by simp [sendReadsTerminal, hpc]
  simp only [next, hpc]
  split
  · cases command with
    | send =>
        have hnone : thread.accepted = [] := hwf.1 (by simp [sending, hpc])
        exact .honest _ rfl (by simp [SendRecord.Honest, hnone]) hexit
    | closeSend => exact .same (returnCommand_closeSend_sends _ _) hexit
  all_goals exact .same rfl hexit

theorem failedExit_sends {command : Command} {error : ErrorCode}
    (hpc : thread.pc = .runFailed command error) (call : CallState) (answer : ErrorCode)
    (parses : Bool) : NextSends thread call (thread.next call answer parses).1.sends := by
  have hexit : ¬(thread.sendReadsTerminal ∧ call.terminal) := by simp [sendReadsTerminal, hpc]
  have hfailed := commandStatus_not_isOk (hwf.2 command error hpc)
  simp only [next, hpc]
  cases command with
  | send => exact .honest _ rfl (by simp [SendRecord.Honest, hfailed]) hexit
  | closeSend => exact .same (returnCommand_closeSend_sends _ _) hexit

theorem next_sends (call : CallState) (answer : ErrorCode) (parses : Bool) :
    NextSends thread call (thread.next call answer parses).1.sends := by
  cases hpc : thread.pc with
  | runCall => exact acceptedExit_sends hwf hpc call answer parses
  | runFailed => exact failedExit_sends hwf hpc call answer parses
  | runHead =>
      by_cases hterminal : call.terminal
      · simp only [next, hpc, hterminal, if_true]
        exact terminalExit_sends hwf (.inl hpc) hterminal
      · exact .same (by simp [next, hpc, hterminal]) (by simp [hterminal])
  | runAwaitTerminal =>
      by_cases hterminal : call.terminal
      · simp only [next, hpc, hterminal, if_true]
        exact terminalExit_sends hwf (.inr (.inl hpc)) hterminal
      · exact .same (by simp [next, hpc, hterminal]) (by simp [hterminal])
  | runAwaitWritable =>
      by_cases hterminal : call.terminal
      · simp only [next, hpc, hterminal, if_true]
        exact terminalExit_sends hwf (.inr (.inr ⟨_, hpc⟩)) hterminal
      · refine .same ?_ (by simp [hterminal])
        simp only [next, hpc, hterminal, Bool.false_eq_true, if_false]
        split <;> rfl
  | readAwait goal =>
      refine .same ?_ (by simp [sendReadsTerminal, hpc])
      simp only [next, hpc]
      split
      · rfl
      · split
        · exact returnNoMessage_sends goal
        · rfl
  | readResume goal =>
      refine .same ?_ (by simp [sendReadsTerminal, hpc])
      simp only [next, hpc]
      split <;> exact returnMessage_sends goal parses
  | finishAwait =>
      refine .same ?_ (by simp [sendReadsTerminal, hpc])
      simp only [next, hpc]
      split <;> rfl
  | _ => exact .same (by simp [next, hpc, complete]) (by simp [sendReadsTerminal, hpc])

theorem Wf.moved {pc : Pc}
    (hsending : { thread with pc := pc }.sending → thread.sending)
    (hfailed : ∀ command error, pc = .runFailed command error → error ≠ .ok) :
    { thread with pc := pc }.Wf :=
  ⟨fun h => hwf.1 (hsending h), hfailed⟩

theorem next_wf (call : CallState) (answer : ErrorCode) (parses : Bool) :
    (thread.next call answer parses).1.Wf := by
  cases hpc : thread.pc with
  | idle => simpa [next, hpc] using hwf
  | runHead command =>
      simp only [next, hpc]
      split
      · exact returnCommand_wf _ _
      · exact hwf.moved (by cases command <;> simp [sending, hpc]) (by simp)
  | runCall command =>
      simp only [next, hpc]
      split
      · exact returnCommand_wf _ _
      · exact hwf.moved (by cases command <;> simp [sending, hpc]) (by simp)
      · exact hwf.moved (by cases command <;> simp [sending, hpc]) (by simp)
      · rename_i hok _ _
        refine hwf.moved (by cases command <;> simp [sending, hpc]) ?_
        rintro _ _ hfailed
        cases hfailed
        exact hok
  | runFailed =>
      simp only [next, hpc]
      exact returnCommand_wf _ _
  | runAwaitTerminal =>
      simp only [next, hpc]
      split
      · exact returnCommand_wf _ _
      · exact hwf
  | runAwaitWritable command =>
      simp only [next, hpc]
      split
      · exact returnCommand_wf _ _
      · split
        · exact hwf.moved (by cases command <;> simp [sending, hpc]) (by simp)
        · exact hwf
  | readAwait goal =>
      simp only [next, hpc]
      split
      · exact hwf.moved (by simp [sending]) (by simp)
      · split
        · exact returnNoMessage_wf goal
        · exact hwf
  | readResume goal =>
      simp only [next, hpc]
      split <;> exact returnMessage_wf goal parses
  | finishAwait =>
      simp only [next, hpc]
      split
      · simp [Wf, sending]
      · exact hwf
  | _ => simp [next, hpc, complete, Wf, sending]

end Thread

namespace BlockingSystem

theorem step_wf {s : BlockingSystem} (hwf : s.thread.Wf) (event : BlockingEvent) :
    (s.step event).thread.Wf := by
  cases event with
  | begin op =>
      simp only [step]
      split
      · rename_i hidle
        exact Thread.begin_wf hidle op
      · exact hwf
  | thread answer parses => exact Thread.next_wf hwf s.call answer parses
  | _ => exact hwf

/-- One step keeps every completed `Send` honest exactly when it does not return from a `Send`
with a stored terminal status that is OK. -/
theorem step_honest {s : BlockingSystem} (hwf : s.thread.Wf) (event : BlockingEvent) :
    (∀ record ∈ (s.step event).thread.sends, record.Honest) ↔
      (∀ record ∈ s.thread.sends, record.Honest) ∧ NoOkTerminalExit s event := by
  cases event with
  | thread answer parses =>
      simp only [NoOkTerminalExit]
      show (∀ record ∈ (s.thread.next s.call answer parses).1.sends, record.Honest) ↔ _
      cases Thread.next_sends hwf s.call answer parses with
      | same hsends =>
          rw [hsends]
          tauto
      | honest record hsends =>
          rw [hsends]
          simp only [List.forall_mem_append, List.forall_mem_singleton]
          tauto
      | terminal payload hsends hread hterminal =>
          rw [hsends]
          simp only [List.forall_mem_append, List.forall_mem_singleton, SendRecord.Honest]
          simp [hread, hterminal]
  | begin op =>
      have hsends : (s.step (.begin op)).thread.sends = s.thread.sends := by
        simp only [step]
        split
        · exact Thread.begin_sends op
        · rfl
      simp [hsends, NoOkTerminalExit]
  | _ => exact (and_iff_left trivial).symm

/-- In every interleaving, each `Send` that returned OK and each `Write` that returned true had
its frame accepted exactly once if and only if no `Send` returned a stored terminal status that
was OK. -/
theorem sends_honest_iff (kind : WriterKind) (call : CallState) (events : List BlockingEvent) :
    (∀ record ∈ (Run.final step ⟨{ kind := kind }, call⟩ events).thread.sends, record.Honest) ↔
      Run.Meets step NoOkTerminalExit ⟨{ kind := kind }, call⟩ events := by
  suffices hgeneral : ∀ (s : BlockingSystem), s.thread.Wf →
      ((∀ record ∈ (Run.final step s events).thread.sends, record.Honest) ↔
        (∀ record ∈ s.thread.sends, record.Honest) ∧ Run.Meets step NoOkTerminalExit s events) by
    rw [hgeneral _ (by simp [Thread.Wf, Thread.sending])]
    simp
  induction events with
  | nil =>
      intro s _
      exact (and_iff_left trivial).symm
  | cons event rest ih =>
      intro s hwf
      rw [Run.final_cons, ih _ (step_wf hwf event), step_honest hwf event, Run.meets_cons,
        and_assoc]

/-- The server ends the call with OK; the next `Write` reports success and nothing was queued. -/
theorem write_true_without_frame :
    (Run.final step {} [.terminal ⟨.ok, []⟩ [], .begin (.write (some [1])),
      .thread .closed false]).thread.sends = [⟨[1], [], ⟨.ok, []⟩, true⟩] := by
  decide

end BlockingSystem

end GrpcLite.Cpp
