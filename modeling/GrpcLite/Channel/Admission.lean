import GrpcLite.Channel.Streams

/-!
# The budgets of a channel

Over every interleaving of calls and streams the two budgets account for the RPCs that are stored,
whichever part of a construction fails and whether or not the channel is still there.
-/

namespace GrpcLite.Channel

section Members

variable {unary stream : Limits}

def Member.Sound : Member → Prop
  | .channel _ => True
  | .unary op => op.Sound
  | .stream st => st.Sound

theorem Member.Sound.share_mem {member : Member} (hsound : member.Sound) :
    member.share ∈ bounded := by
  cases member with
  | channel => refine ⟨?_, ?_, ?_, ?_⟩ <;> simp [Member.share]
  | unary => exact Unary.Sound.share_mem hsound
  | stream => exact Stream.Sound.share_mem hsound

theorem beginUnary_sound (s : Shared) (call : UnaryCall) : (beginUnary s call).2.Sound := by
  have hrefused : Unary.Sound { blocking := call.blocking } := by constructor <;> simp
  unfold beginUnary
  simp only
  split
  · exact hrefused
  split
  · exact hrefused
  split
  · constructor <;> simp
  · exact hrefused

theorem beginStream_sound (s : Shared) (call : StreamCall) : (beginStream s call).2.Sound := by
  have hrefused : Stream.Sound { limits := call.limits } := by constructor <;> simp
  unfold beginStream
  simp only
  split
  · exact hrefused
  split
  · exact hrefused
  · rename_i charge hcharge
    split
    · have hsum : charge = call.limits.maxInboundBufferSize + call.limits.maxOutboundBufferSize :=
        checkedAdd_eq_some hcharge
      constructor <;> simp
      exact hsum
    · exact hrefused

theorem enter_sound (s : Shared) (call : Call) : (enter s call).2.Sound := by
  cases call with
  | unary call => exact beginUnary_sound s call
  | stream call => exact beginStream_sound s call

theorem act_sound (s : Shared) (member : Member) (action : Action) (hsound : member.Sound) :
    (act s member action).2.Sound := by
  unfold act
  split
  · exact (Unary.acts s _ _).sound hsound
  · exact (Stream.Sound.acts hsound _).sound hsound
  · trivial
  · trivial
  · exact hsound

/-- What an attempt that passes the checks before the reservation is charged. -/
def Call.charge : Call → Option ℕ
  | .unary call =>
    if !isValidMethodPath call.path || decide (maxU32 < call.maxResponseSize) then none
    else call.admissionBytes
  | .stream call => if !call.isValid then none else call.admissionBytes

def Shared.admission (s : Shared) : Call → Admission
  | .unary _ => s.unary
  | .stream _ => s.stream

def Shared.setAdmission (s : Shared) (a : Admission) : Call → Shared
  | .unary _ => { s with unary := a }
  | .stream _ => { s with stream := a }

def Call.refused : Call → Member
  | .unary call => .unary { blocking := call.blocking }
  | .stream call => .stream { limits := call.limits }

def Call.admitted (charge : ℕ) : Call → Member
  | .unary call => .unary {
      blocking := call.blocking
      charge := charge
      stage := .building [.create, .path, .frame] call.metadata
      reservations := 1 }
  | .stream call => .stream {
      limits := call.limits
      charge := charge
      stage := .building [.create, .path] call.metadata
      reservations := 1 }

theorem enter_eq (s : Shared) (call : Call) :
    enter s call = match call.charge with
      | none => (s, call.refused)
      | some charge =>
        if ((s.admission call).reserve charge).2 then
          (s.setAdmission ((s.admission call).reserve charge).1 call, call.admitted charge)
        else (s.setAdmission (s.admission call).reject call, call.refused) := by
  cases call with
  | unary call =>
    simp only [enter, beginUnary, Call.charge]
    split
    · rfl
    · cases call.admissionBytes with
      | none => rfl
      | some charge =>
        simp only [Shared.admission]
        by_cases hreserve : (s.unary.reserve charge).2 = true
        · simp only [hreserve, if_true]
          rfl
        · simp only [hreserve, Admission.reserve_eq_reject (Bool.eq_false_of_not_eq_true hreserve)]
          rfl
  | stream call =>
    simp only [enter, beginStream, Call.charge]
    split
    · rfl
    · cases call.admissionBytes with
      | none => rfl
      | some charge =>
        simp only [Shared.admission]
        by_cases hreserve : (s.stream.reserve charge).2 = true
        · simp only [hreserve, if_true]
          rfl
        · simp only [hreserve, Admission.reserve_eq_reject (Bool.eq_false_of_not_eq_true hreserve)]
          rfl

theorem Call.refused_share (call : Call) : call.refused.share = 0 := by
  cases call <;> simp [Call.refused, Member.share, Unary.share, Stream.share, endShare]

theorem Call.admitted_share (call : Call) (charge : ℕ) :
    (call.admitted charge).share = match call with
      | .unary _ => callShare charge
      | .stream _ => streamShare charge := by
  cases call <;> simp [Call.admitted, Member.share, Unary.share, Stream.share, endShare]

theorem enter_balances (s : Shared) (call : Call) {n : Share} (h : Balances unary stream s n) :
    Balances unary stream (enter s call).1 (n + (enter s call).2.share) := by
  rw [enter_eq]
  split
  · rwa [Call.refused_share, add_zero]
  · split
    · rename_i hreserve
      rw [Call.admitted_share]
      cases call with
      | unary => exact h.reserveUnary hreserve
      | stream => exact h.reserveStream hreserve
    · rw [Call.refused_share, add_zero]
      cases call with
      | unary => exact { h with unary := h.unary.reject }
      | stream => exact { h with stream := h.stream.reject }

theorem act_balances (s : Shared) (member : Member) (action : Action) {n : Share}
    (hn : n ∈ bounded) (hsound : member.Sound) (h : Balances unary stream s (n + member.share)) :
    Balances unary stream (act s member action).1 (n + (act s member action).2.share) := by
  unfold act
  split
  · exact (Unary.acts s _ _).balances hsound hn h
  · exact (Stream.Sound.acts hsound _).balances hsound hn h
  · exact { h with stats := h.stats.setSocketBytes _ }
  · simpa [Member.share] using h.releaseReference
  · exact h

end Members

theorem start_sound (unary stream : Limits) :
    ∀ member ∈ (start unary stream).members, member.Sound := by
  intro member hmember
  obtain rfl : member = .channel true := by simpa [start] using hmember
  trivial

theorem start_balances (unary stream : Limits) :
    Balances unary stream (start unary stream).shared
      (Pool.total Member.share (start unary stream).members) := by
  have hshare : Pool.total Member.share (start unary stream).members = one .references 1 := by
    simp [start, Member.share]
  rw [hshare]
  refine ⟨⟨rfl, rfl, rfl, ?_, ?_, rfl⟩, ⟨rfl, rfl, rfl, ?_, ?_, rfl⟩, rfl, ?_, ?_, rfl⟩
  · simp
  · simp
  · simp
  · simp
  · intro g
    cases g <;> simp [start] <;> rfl
  · intro b
    cases b <;> simp [start] <;> rfl

section Runs

variable (unary stream : Limits) (events : List (Pool.Event Call Action))

theorem run_sound : ∀ member ∈ (Run.final step (start unary stream) events).members, member.Sound :=
  Pool.members_invariant enter_sound act_sound (start_sound unary stream) events

theorem run_balances :
    Balances unary stream (Run.final step (start unary stream) events).shared
      (Pool.total Member.share (Run.final step (start unary stream) events).members) :=
  Pool.accounts_invariant bounded (fun _ hsound => hsound.share_mem) enter_sound act_sound
    (fun s call _ _ h => enter_balances s call h)
    (fun s member action _ hn hsound h => act_balances s member action hn hsound h)
    (start_sound unary stream) (start_balances unary stream) events

end Runs

theorem total_apply (members : List Member) (q : Quantity) :
    Pool.total Member.share members q = Pool.total (fun member => member.share q) members :=
  Pool.total_hom Member.share (Pi.evalAddMonoidHom (fun _ : Quantity => ℕ) q) members

namespace Member

def isStoredUnary : Member → Bool
  | .unary op => op.stage.isStored
  | _ => false

def unaryCharge : Member → ℕ
  | .unary op => if op.stage.isStored then op.charge else 0
  | _ => 0

def isStoredStream : Member → Bool
  | .stream st => st.stage.isStored
  | _ => false

def streamCharge : Member → ℕ
  | .stream st => if st.stage.isStored then st.charge else 0
  | _ => 0

/-- The member holds a reference to the allocator, which owns the budget of the streams. -/
def keepsAllocator : Member → Bool
  | .channel alive => alive
  | .stream st => st.retained
  | .unary _ => false

theorem share_calls (member : Member) :
    member.share .calls = if member.isStoredUnary then 1 else 0 := by
  cases member with
  | unary op => cases hstored : op.stage.isStored <;> simp [share, isStoredUnary, hstored]
  | channel | stream => simp [share, isStoredUnary]

theorem share_callBytes (member : Member) : member.share .callBytes = member.unaryCharge := by
  cases member <;> simp [share, unaryCharge]

theorem share_streams (member : Member) :
    member.share .streams = if member.isStoredStream then 1 else 0 := by
  cases member with
  | stream st => cases hstored : st.stage.isStored <;> simp [share, isStoredStream, hstored]
  | channel | unary => simp [share, isStoredStream]

theorem share_bufferBytes (member : Member) : member.share .bufferBytes = member.streamCharge := by
  cases member <;> simp [share, streamCharge]

theorem share_references (member : Member) :
    member.share .references = if member.keepsAllocator then 1 else 0 := by
  cases member with
  | channel alive => cases alive <;> simp [share, keepsAllocator]
  | unary => simp [share, keepsAllocator]
  | stream st => cases hretained : st.retained <;> simp [share, keepsAllocator, hretained]

end Member

theorem Stage.reservations_eq {stage : Stage} {reservations releases : ℕ}
    (hreservations : reservations = if stage = .refused then 0 else 1)
    (hreleases : releases = if stage = .freed then 1 else 0) :
    reservations ≤ 1 ∧ reservations = releases + (if stage.isStored then 1 else 0) := by
  cases stage <;> simp [hreservations, hreleases]

theorem act_refused (s : Shared) (call : Call) (action : Action) :
    act s call.refused action = (s, call.refused) := by
  cases call with
  | unary =>
    cases action with
    | unary action => cases action <;> rfl
    | stream => rfl
    | setSocketBytes | deinitChannel => rfl
  | stream =>
    cases action with
    | unary => rfl
    | stream action => cases action <;> rfl
    | setSocketBytes | deinitChannel => rfl

/-- Over every interleaving of calls, streams and the end of the channel, with every failure of an
attempt, each budget is the number and the charges of the RPCs that are stored, within its limits,
and no assertion of `release` fails.  An attempt that its budget refuses changes the counter of
rejections only, then and later, and one that fails an earlier check changes nothing.  An RPC gives
its reservation back once, with its storage, and the allocator that owns the budget of the streams
stays until the last of them is gone, with or without the channel. -/
theorem channel_admission (unary stream : Limits) (events : List (Pool.Event Call Action)) :
    let calls := Run.final step (start unary stream) events
    (calls.shared.unary.retained = calls.members.countP Member.isStoredUnary ∧
      calls.shared.unary.retainedBytes = Pool.total Member.unaryCharge calls.members ∧
      calls.shared.unary.retained ≤ unary.count ∧
      calls.shared.unary.retainedBytes ≤ unary.bytes ∧
      calls.shared.unary.assertionFailed = false) ∧
    (calls.shared.stream.retained = calls.members.countP Member.isStoredStream ∧
      calls.shared.stream.retainedBytes = Pool.total Member.streamCharge calls.members ∧
      calls.shared.stream.retained ≤ stream.count ∧
      calls.shared.stream.retainedBytes ≤ stream.bytes ∧
      calls.shared.stream.assertionFailed = false) ∧
    (∀ call : Call, (call.charge = none → enter calls.shared call = (calls.shared, call.refused)) ∧
      (∀ charge, call.charge = some charge →
        ((calls.shared.admission call).reserve charge).2 = false →
          enter calls.shared call =
            (calls.shared.setAdmission (calls.shared.admission call).reject call, call.refused)) ∧
      ∀ action, act calls.shared call.refused action = (calls.shared, call.refused)) ∧
    (∀ op, .unary op ∈ calls.members → op.reservations ≤ 1 ∧
      op.reservations = op.releases + (if op.stage.isStored then 1 else 0)) ∧
    (∀ st, .stream st ∈ calls.members → st.reservations ≤ 1 ∧
      st.reservations = st.releases + (if st.stage.isStored then 1 else 0)) ∧
    calls.shared.references = calls.members.countP Member.keepsAllocator ∧
    ∀ st, .stream st ∈ calls.members → st.stage = .built ∨ st.stage = .live →
      0 < calls.shared.references := by
  intro calls
  have hsound := run_sound unary stream events
  have hbalances := run_balances unary stream events
  have hreferences : calls.shared.references = calls.members.countP Member.keepsAllocator := by
    rw [hbalances.references, total_apply, ← Pool.total_eq_countP]
    simp only [Member.share_references]
    rfl
  refine ⟨⟨?_, ?_, ?_, ?_, ?_⟩, ⟨?_, ?_, ?_, ?_, ?_⟩, ?_, ?_, ?_, hreferences, ?_⟩
  · rw [hbalances.unary.retained, total_apply, ← Pool.total_eq_countP]
    simp only [Member.share_calls]
    rfl
  · rw [hbalances.unary.retainedBytes, total_apply]
    simp only [Member.share_callBytes]
    rfl
  · rw [hbalances.unary.retained]
    exact hbalances.unary.count_le
  · rw [hbalances.unary.retainedBytes]
    exact hbalances.unary.bytes_le
  · exact hbalances.unary.assertions
  · rw [hbalances.stream.retained, total_apply, ← Pool.total_eq_countP]
    simp only [Member.share_streams]
    rfl
  · rw [hbalances.stream.retainedBytes, total_apply]
    simp only [Member.share_bufferBytes]
    rfl
  · rw [hbalances.stream.retained]
    exact hbalances.stream.count_le
  · rw [hbalances.stream.retainedBytes]
    exact hbalances.stream.bytes_le
  · exact hbalances.stream.assertions
  · intro call
    refine ⟨?_, ?_, act_refused calls.shared call⟩
    · intro hcharge
      rw [enter_eq, hcharge]
    · intro charge hcharge hfull
      rw [enter_eq, hcharge]
      simp only [hfull, Bool.false_eq_true, if_false]
  · intro op hop
    have hop : op.Sound := hsound _ hop
    exact Stage.reservations_eq hop.reservations hop.releases
  · intro st hst
    have hst : st.Sound := hsound _ hst
    exact Stage.reservations_eq hst.reservations hst.releases
  · intro st hst hstage
    rw [hreferences, List.countP_pos_iff]
    refine ⟨.stream st, hst, ?_⟩
    have hretained := (hsound _ hst : st.Sound).retained
    obtain hbuilt | hlive := hstage
    · simpa [Member.keepsAllocator, hbuilt] using hretained
    · simpa [Member.keepsAllocator, hlive] using hretained

end GrpcLite.Channel
