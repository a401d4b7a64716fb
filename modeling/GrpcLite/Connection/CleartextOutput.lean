import GrpcLite.Connection.Drain
import GrpcLite.Wire.Status

/-!
# The cleartext output of a connection

`flush` fetches chunks from nghttp2, gathers them in batches and queues these on the socket until
the bytes under way reach the high watermark.  `fetched`, `queued` and `completed` are the history
of the connection: what nghttp2 has returned, what the socket was given, and the writes it has
reported.
-/

namespace GrpcLite.Output

open Drain (socketWriteBatchTarget canFlushWritesWithPending appendBatch)

structure Socket where
  high : ℕ
  queuedWriteBytes : ℕ := 0
  /-- The writes that are not completed. -/
  writes : List Bytes := []
  queued : List Bytes := []
  completed : List Bytes := []
  fetched : List Bytes := []
  failed : Bool := false
  trapped : Bool := false

/-- What one turn of the loop finds: the channel stops, nghttp2 fails, or it returns a chunk (an
empty one for the length 0).  `allocated` says that the allocations of the turn succeed. -/
inductive Fetch where
  | stopping
  | failed
  | chunk (bytes : Bytes) (allocated : Bool)

def validateTransportOptions (initialStreamWindowSize high low : ℕ) : Bool :=
  initialStreamWindowSize != 0 && decide (initialStreamWindowSize ≤ 2 ^ 31 - 1) &&
    low != 0 && decide (low < high)

/-- `none` when the sum overflows. -/
def queueOwnedSocketWrite (s : Socket) (bytes : Bytes) : Option Socket :=
  (checkedAdd s.queuedWriteBytes bytes.length).map fun queuedWriteBytes =>
    { s with
      queuedWriteBytes := queuedWriteBytes
      writes := s.writes ++ [bytes]
      queued := s.queued ++ [bytes] }

def queueCompleted (s : Socket) : Option Bytes → Option Socket
  | none => some s
  | some bytes => queueOwnedSocketWrite s bytes

def flushLoop (s : Socket) (batch : Bytes) : List Fetch → Option (Socket × Bytes)
  | [] | .stopping :: _ => some (s, batch)
  | .failed :: _ => none
  | .chunk bytes allocated :: rest =>
    if !canFlushWritesWithPending s.queuedWriteBytes batch.length s.high ∨ bytes = [] then
      some (s, batch)
    else if !allocated then none
    else do
      let (completed, batch) := appendBatch batch bytes socketWriteBatchTarget
      let s ← queueCompleted { s with fetched := s.fetched ++ [bytes] } completed
      if socketWriteBatchTarget ≤ batch.length then
        flushLoop (← queueOwnedSocketWrite s batch) [] rest
      else flushLoop s batch rest

def flush (s : Socket) (fetches : List Fetch) (allocated : Bool) : Option Socket := do
  let (s, batch) ← flushLoop s [] fetches
  if batch = [] then return s
  if !allocated then none
  queueOwnedSocketWrite s batch

def onWrite (s : Socket) (index : ℕ) : Socket :=
  match s.writes[index]? with
  | none => s
  | some bytes =>
    if bytes.length ≤ s.queuedWriteBytes then
      { s with
        queuedWriteBytes := s.queuedWriteBytes - bytes.length
        writes := s.writes.eraseIdx index }
    else { s with trapped := true }

inductive Event where
  | flush (fetches : List Fetch) (allocated : Bool)
  | written (index : ℕ)

def step (s : Socket) : Event → Socket
  | .flush fetches allocated =>
    if s.failed then s else (flush s fetches allocated).getD { s with failed := true }
  | .written index => { onWrite s index with completed := s.completed ++ s.writes[index]?.toList }

def Socket.lastChunk (s : Socket) : ℕ := (s.fetched.getLast?.map List.length).getD 0

structure Flows (s : Socket) (batch : Bytes) : Prop where
  order : s.queued.flatten ++ batch = s.fetched.flatten
  sizes : ∀ bytes ∈ s.queued, bytes.length ≤ socketWriteBatchTarget ∨ bytes ∈ s.fetched
  total : s.queuedWriteBytes = (s.writes.map List.length).sum
  settled : (s.completed ++ s.writes).Perm s.queued
  bound : s.queuedWriteBytes + batch.length < s.high + s.lastChunk

variable {s t : Socket} {batch bytes chunk : Bytes}

theorem Flows.queue (h : Flows s (bytes ++ batch))
    (hsize : bytes.length ≤ socketWriteBatchTarget ∨ bytes ∈ s.fetched)
    (hqueue : queueOwnedSocketWrite s bytes = some t) :
    Flows t batch ∧ t.fetched = s.fetched ∧ t.trapped = s.trapped := by
  obtain ⟨total, hsum, rfl⟩ := Option.map_eq_some_iff.1 hqueue
  cases checkedAdd_eq_some hsum
  have hbound := h.bound
  rw [List.length_append, ← Nat.add_assoc] at hbound
  refine ⟨⟨?_, ?_, ?_, ?_, hbound⟩, rfl, rfl⟩
  · simpa using h.order
  · exact List.forall_mem_append.mpr ⟨h.sizes, List.forall_mem_singleton.mpr hsize⟩
  · simp [h.total]
  · rw [← List.append_assoc]
    exact h.settled.append_right _

theorem appendBatch_spec (hopen : batch.length < socketWriteBatchTarget) :
    appendBatch batch chunk socketWriteBatchTarget = (some batch, chunk) ∨
      appendBatch batch chunk socketWriteBatchTarget = (none, batch ++ chunk) ∧
        (batch ++ chunk = chunk ∨ (batch ++ chunk).length ≤ socketWriteBatchTarget) := by
  unfold appendBatch
  split
  · exact .inl rfl
  · next hkept =>
    refine .inr ⟨rfl, ?_⟩
    by_cases hempty : batch = []
    · exact .inl (by simp [hempty])
    · rw [List.length_append]
      have := not_and.1 hkept hempty
      omega

theorem Flows.fetch (h : Flows s batch) (chunk : Bytes)
    (hroom : canFlushWritesWithPending s.queuedWriteBytes batch.length s.high = true) :
    Flows { s with fetched := s.fetched ++ [chunk] } (batch ++ chunk) := by
  simp only [canFlushWritesWithPending, Bool.and_eq_true, decide_eq_true_eq] at hroom
  refine ⟨?_, fun other hother => ?_, h.total, h.settled, ?_⟩
  · simp [← h.order]
  · exact (h.sizes other hother).imp_right (List.mem_append_left _)
  · simp only [Socket.lastChunk, List.getLast?_concat, List.length_append, Option.map_some,
      Option.getD_some]
    omega

theorem Flows.gather (h : Flows s batch) (hopen : batch.length < socketWriteBatchTarget)
    (hroom : canFlushWritesWithPending s.queuedWriteBytes batch.length s.high = true)
    (hqueue : queueCompleted { s with fetched := s.fetched ++ [chunk] }
      (appendBatch batch chunk socketWriteBatchTarget).1 = some t) :
    Flows t (appendBatch batch chunk socketWriteBatchTarget).2 ∧
      ((appendBatch batch chunk socketWriteBatchTarget).2.length ≤ socketWriteBatchTarget ∨
        (appendBatch batch chunk socketWriteBatchTarget).2 ∈ t.fetched) ∧
      t.trapped = s.trapped := by
  have hfetched := h.fetch chunk hroom
  rcases @appendBatch_spec batch chunk hopen with happend | ⟨happend, hsize⟩
  · rw [happend] at hqueue ⊢
    obtain ⟨hflows, hkept, htrapped⟩ := hfetched.queue (.inl (Nat.le_of_lt hopen)) hqueue
    exact ⟨hflows, .inr (by simp [hkept]), htrapped⟩
  · rw [happend] at hqueue ⊢
    cases hqueue
    refine ⟨hfetched, ?_, rfl⟩
    rcases hsize with hsame | hsize
    · exact .inr (by simp [hsame])
    · exact .inl hsize

theorem flushLoop_flows {fetches : List Fetch} {rest : Bytes} (h : Flows s batch)
    (hopen : batch.length < socketWriteBatchTarget)
    (hloop : flushLoop s batch fetches = some (t, rest)) :
    Flows t rest ∧ rest.length < socketWriteBatchTarget ∧ t.trapped = s.trapped := by
  induction fetches generalizing s batch with
  | nil =>
    cases hloop
    exact ⟨h, hopen, rfl⟩
  | cons fetch fetches ih =>
    cases fetch with
    | stopping =>
      cases hloop
      exact ⟨h, hopen, rfl⟩
    | failed => cases hloop
    | chunk bytes =>
      rw [flushLoop] at hloop
      split at hloop
      · cases hloop
        exact ⟨h, hopen, rfl⟩
      split at hloop
      · cases hloop
      · next hguard _ =>
        obtain ⟨u, hcompleted, hloop⟩ := Option.bind_eq_some_iff.1 hloop
        obtain ⟨hflows, hsize, htrapped⟩ :=
          h.gather hopen (by simpa using (not_or.1 hguard).1) hcompleted
        split at hloop
        · obtain ⟨v, hqueue, hloop⟩ := Option.bind_eq_some_iff.1 hloop
          rw [← List.append_nil (appendBatch batch bytes _).2] at hflows
          obtain ⟨hflows, -, htrapped'⟩ := hflows.queue hsize hqueue
          have hend := ih hflows (by decide) hloop
          exact ⟨hend.1, hend.2.1, by rw [hend.2.2, htrapped', htrapped]⟩
        · next hready =>
          have hend := ih hflows (Nat.not_le.1 hready) hloop
          exact ⟨hend.1, hend.2.1, hend.2.2.trans htrapped⟩

theorem flush_flows {fetches : List Fetch} {allocated : Bool} (h : Flows s [])
    (hflush : flush s fetches allocated = some t) :
    Flows t [] ∧ t.trapped = s.trapped := by
  obtain ⟨⟨u, rest⟩, hloop, hlast⟩ := Option.bind_eq_some_iff.1 hflush
  obtain ⟨hflows, hopen, htrapped⟩ := flushLoop_flows h (by decide) hloop
  dsimp only at hlast
  split at hlast
  · next hempty =>
    cases hlast
    exact ⟨hempty ▸ hflows, htrapped⟩
  split at hlast
  · cases hlast
  · rw [← List.append_nil rest] at hflows
    obtain ⟨hflows, -, htrapped'⟩ := hflows.queue (.inl (Nat.le_of_lt hopen)) hlast
    exact ⟨hflows, htrapped'.trans htrapped⟩

theorem written_flows (h : Flows s []) (index : ℕ) :
    Flows (step s (.written index)) [] ∧ (step s (.written index)).trapped = s.trapped := by
  simp only [step, onWrite]
  cases hwrite : s.writes[index]? with
  | none => exact ⟨{ h with settled := by simpa using h.settled }, rfl⟩
  | some bytes =>
    obtain ⟨hlt, rfl⟩ := List.getElem?_eq_some_iff.1 hwrite
    have hperm := List.getElem_cons_eraseIdx_perm hlt
    have htotal : s.queuedWriteBytes =
        s.writes[index].length + ((s.writes.eraseIdx index).map List.length).sum := by
      rw [h.total, ← List.sum_cons, ← List.map_cons]
      exact ((hperm.map _).sum_eq).symm
    have hbound := h.bound
    dsimp only
    rw [if_pos (by omega)]
    refine ⟨⟨h.order, h.sizes, ?_, ?_, ?_⟩, rfl⟩
    · dsimp only
      omega
    · have hmoved := (hperm.append_left s.completed).trans h.settled
      simpa using hmoved
    · simp only [Socket.lastChunk] at hbound ⊢
      omega

theorem step_flows (h : s.failed = false → s.trapped = false ∧ Flows s []) (event : Event) :
    (step s event).failed = false → (step s event).trapped = false ∧ Flows (step s event) [] := by
  cases event with
  | flush fetches allocated =>
    simp only [step]
    cases hfailed : s.failed with
    | true => exact fun hno => by cases hfailed.symm.trans hno
    | false =>
      have hbefore := h hfailed
      cases hflush : flush s fetches allocated with
      | none => exact fun hno => absurd hno (by simp)
      | some =>
        obtain ⟨hflows, htrapped⟩ := flush_flows hbefore.2 hflush
        exact fun _ => ⟨htrapped.trans hbefore.1, hflows⟩
  | written index =>
    intro hfailed
    have hbefore : s.failed = false := by
      simp only [step, onWrite] at hfailed
      split at hfailed
      · exact hfailed
      · split at hfailed <;> exact hfailed
    obtain ⟨hflows, htrapped⟩ := written_flows (h hbefore).2 index
    exact ⟨htrapped.trans (h hbefore).1, hflows⟩

/-- The counter and the completed writes make up all that was queued. -/
theorem Flows.balance (h : Flows s batch) :
    s.queuedWriteBytes + s.completed.flatten.length = s.queued.flatten.length := by
  have hsum := (h.settled.map List.length).sum_eq
  rw [List.map_append, List.sum_append] at hsum
  rw [h.total, List.length_flatten, List.length_flatten, ← hsum, Nat.add_comm]

/-- As long as no flush has failed, the socket gets the chunks in order and in whole, in buffers of
at most the target size or of one chunk each; every queued write is completed or under way; and the
bytes under way, which are the queued ones less the completed ones, are counted and bounded. -/
theorem cleartext_output (initialStreamWindowSize high low : ℕ)
    (hvalid : validateTransportOptions initialStreamWindowSize high low = true)
    (events : List Event) :
    let s := Run.final step { high := high } events
    s.failed = false →
      s.trapped = false ∧ s.queued.flatten = s.fetched.flatten ∧
      (∀ bytes ∈ s.queued, bytes.length ≤ socketWriteBatchTarget ∨ bytes ∈ s.fetched) ∧
      (s.completed ++ s.writes).Perm s.queued ∧
      s.queuedWriteBytes = (s.writes.map List.length).sum ∧
      s.queuedWriteBytes + s.completed.flatten.length = s.queued.flatten.length ∧
      s.queuedWriteBytes < s.high + s.lastChunk := by
  simp only [validateTransportOptions, Bool.and_eq_true, decide_eq_true_eq] at hvalid
  have hnew : Flows { high := high } [] :=
    ⟨rfl, by simp, rfl, .nil, by simpa [Socket.lastChunk] using Nat.zero_lt_of_lt hvalid.2⟩
  intro s hfailed
  obtain ⟨htrapped, hflows⟩ := Run.invariant_always
    (I := fun s => s.failed = false → s.trapped = false ∧ Flows s [])
    (fun _ event h => step_flows h event) events (fun _ => ⟨rfl, hnew⟩) hfailed
  exact ⟨htrapped, by simpa using hflows.order, hflows.sizes, hflows.settled, hflows.total,
    hflows.balance, by simpa using hflows.bound⟩

/-- Two chunks are gathered in one buffer and a third one fills another; the second buffer is
written first. -/
theorem cleartext_output_twoChunks :
    let s := Run.final step { high := 100 }
      [.flush [.chunk [1, 2] true, .chunk [3] true] true, .flush [.chunk [4, 5] true] true,
        .written 1]
    s.queued = [[1, 2, 3], [4, 5]] ∧ s.completed = [[4, 5]] ∧ s.queuedWriteBytes = 3 ∧
      s.queued.flatten = s.fetched.flatten ∧ (s.completed ++ s.writes).Perm s.queued ∧
      s.queuedWriteBytes + s.completed.flatten.length = s.queued.flatten.length := by
  intro s
  have h := cleartext_output 65535 100 50 (by decide)
    [.flush [.chunk [1, 2] true, .chunk [3] true] true, .flush [.chunk [4, 5] true] true,
      .written 1] (by decide)
  exact ⟨by decide, by decide, by decide, h.2.1, h.2.2.2.1, h.2.2.2.2.2.1⟩

end GrpcLite.Output
