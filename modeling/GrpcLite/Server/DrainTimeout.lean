import GrpcLite.Server.Shutdown

/-!
# The timeout of a drain

`requestShutdown` records the timeout of the first graceful request under the coordinator's lock,
and every caller then passes its own timeout on to the reactors, outside that lock.  A reactor keeps
the timeout of the caller that reaches it first.
-/

namespace GrpcLite.Server

namespace Reactor

def Records (r : Reactor) : Prop :=
  r.state = .running ∨ r.state = .starting ∧ r.shutdownRequest = .none

instance (r : Reactor) : Decidable r.Records := inferInstanceAs (Decidable (_ ∨ _))

/-- A reactor that drains, or will drain once it has started, does so with this timeout. -/
def DrainsWith (timeout : ℕ) (r : Reactor) : Prop :=
  r.state = .draining ∨ r.state = .starting ∧ r.shutdownRequest = .graceful →
    r.drainTimeout = timeout

variable {timeout : ℕ} {r : Reactor}

theorem DrainsWith.next (h : r.DrainsWith timeout) (event : ReactorEvent) :
    (r.next event).DrainsWith timeout := by
  cases event with
  | signalStarted failed =>
    rw [Reactor.next]
    split
    · rename_i hstarting
      unfold signalStarted
      cases failed with
      | true => simp [DrainsWith]
      | false =>
        cases hrequest : r.shutdownRequest with
        | none => simp [DrainsWith]
        | graceful => exact fun _ => h (.inr ⟨hstarting, hrequest⟩)
        | immediate => simp [DrainsWith]
    · exact h
  | drainIdle =>
    rw [Reactor.next]
    split
    · exact h
    · exact h
  | drainStop | drainTimeout | loopEnded =>
    rw [Reactor.next]
    split
    · simp [DrainsWith]
    · exact h

theorem next_shutdownRequest (r : Reactor) (event : ReactorEvent) :
    (r.next event).shutdownRequest = r.shutdownRequest := by
  cases event with
  | signalStarted | drainIdle | drainStop | drainTimeout | loopEnded =>
    rw [Reactor.next]
    split <;> rfl

variable {recorded : ℕ}

theorem DrainsWith.graceful (h : r.DrainsWith recorded)
    (hrecords : r.Records → timeout = recorded) :
    (shutdownReactor .graceful timeout r).DrainsWith recorded := by
  unfold shutdownReactor
  split
  · exact nofun
  · rename_i hstarting
    split
    · rename_i hnone
      rcases hnone with hnone | hnone
      · cases hnone
      · exact fun _ => hrecords (.inr ⟨hstarting, hnone⟩)
    · exact h
  · rename_i hrunning
    exact fun _ => hrecords (.inl hrunning)
  · exact h
  · exact h
  · exact h

theorem DrainsWith.immediate (h : r.DrainsWith recorded) :
    (shutdownReactor .immediate timeout r).DrainsWith recorded := by
  unfold shutdownReactor
  split
  · exact nofun
  · rename_i hstarting
    rw [if_pos (.inl rfl)]
    rintro (hdraining | ⟨_, hgraceful⟩)
    · rw [hstarting] at hdraining
      cases hdraining
    · cases hgraceful
  · exact nofun
  · exact nofun
  · exact h
  · exact h

end Reactor

namespace LifecycleWorld

/-- A call passes the recorded timeout on, unless the reactor it reaches does not take it over. -/
def PassesRecorded (s : LifecycleWorld) : Event → Prop
  | .call index =>
    ∀ call ∈ s.calls[index]?, ∀ reactor ∈ call.pending.bind List.head?,
      ∀ r ∈ s.reactors[reactor]?, r.Records → call.timeout = s.coordinator.drainTimeout
  | _ => True

instance (s : LifecycleWorld) : ∀ event, Decidable (s.PassesRecorded event)
  | .call index => inferInstanceAs (Decidable (∀ call ∈ s.calls[index]?,
      ∀ reactor ∈ call.pending.bind List.head?, ∀ r ∈ s.reactors[reactor]?,
        r.Records → call.timeout = s.coordinator.drainTimeout))
  | .shutdown | .shutdownGracefully _ | .start _ | .reactor _ _ => isTrue trivial

/-- Every reactor that drains does so with the timeout that the coordinator has recorded. -/
def DrainsAsRecorded (s : LifecycleWorld) : Prop :=
  ∀ r ∈ s.reactors, r.state = .draining → r.drainTimeout = s.coordinator.drainTimeout

def StarterKnows (c : Coordinator) : StartProgress → Prop
  | .relaying _ _ timeout => timeout = c.drainTimeout
  | .delivering _ => c.shutdownRequest ≠ .none
  | _ => True

instance (s : LifecycleWorld) : Decidable s.DrainsAsRecorded :=
  inferInstanceAs (Decidable (∀ r ∈ s.reactors, _))

structure Agrees (s : LifecycleWorld) : Prop extends s.Sound where
  graceful : ∀ call ∈ s.calls, call.request = .graceful
  drains : ∀ (i : ℕ) (r : Reactor), s.reactors[i]? = some r →
    r.DrainsWith s.coordinator.drainTimeout
  told : ∀ (i : ℕ) (r : Reactor), s.reactors[i]? = some r → r.shutdownRequest ≠ .none →
    s.coordinator.shutdownRequest ≠ .none
  knows : StarterKnows s.coordinator s.starter

section Steps

variable {s : LifecycleWorld}

variable {i : ℕ} {r : Reactor} {s' : LifecycleWorld}

theorem Agrees.told_draining (h : s.Agrees) (hr : s.reactors[i]? = some r)
    (hdraining : r.state = .draining ∨ r.state = .starting ∧ r.shutdownRequest = .graceful) :
    s.coordinator.shutdownRequest ≠ .none := by
  refine h.told i r hr fun hnone => ?_
  rcases hdraining with hstate | ⟨_, hgraceful⟩
  · have hle := (h.consistent i r hr).draining hstate
    rw [hnone] at hle
    exact absurd hle (by decide)
  · rw [hnone] at hgraceful
    cases hgraceful

theorem Agrees.modify (h : s.Agrees) (hsound : s'.Sound) {j : ℕ} {f : Reactor → Reactor}
    (hreactors : s'.reactors = s.reactors.modify j f)
    (htimeout : s'.coordinator.drainTimeout = s.coordinator.drainTimeout)
    (hrequest : s'.coordinator.shutdownRequest = s.coordinator.shutdownRequest)
    (hcalls : ∀ call ∈ s'.calls, call.request = .graceful)
    (hknows : StarterKnows s'.coordinator s'.starter)
    (hdrains : ∀ r, s.reactors[j]? = some r → (f r).DrainsWith s.coordinator.drainTimeout)
    (htold : ∀ r, s.reactors[j]? = some r → (f r).shutdownRequest ≠ .none →
      s.coordinator.shutdownRequest ≠ .none) : s'.Agrees := by
  refine { hsound with graceful := hcalls, drains := ?_, told := ?_, knows := hknows }
  · intro i r' hr'
    rw [hreactors] at hr'
    rw [htimeout]
    obtain ⟨r, hr, ⟨rfl, rfl⟩ | ⟨_, rfl⟩⟩ := getElem?_modifyReactor (s := s) hr'
    · exact hdrains r hr
    · exact h.drains i r' hr
  · intro i r' hr'
    rw [hreactors] at hr'
    rw [hrequest]
    obtain ⟨r, hr, ⟨rfl, rfl⟩ | ⟨_, rfl⟩⟩ := getElem?_modifyReactor (s := s) hr'
    · exact htold r hr
    · exact h.told i r' hr

theorem Agrees.moveOn (h : s.Agrees) (hsound : s'.Sound) (hreactors : s'.reactors = s.reactors)
    (hcalls : s'.calls = s.calls)
    (htimeout : s'.coordinator.drainTimeout = s.coordinator.drainTimeout)
    (hrequest : s.coordinator.shutdownRequest ≠ .none → s'.coordinator.shutdownRequest ≠ .none)
    (hknows : StarterKnows s'.coordinator s'.starter) : s'.Agrees := by
  refine { hsound with
    graceful := hcalls ▸ h.graceful
    drains := fun i r hr => htimeout ▸ h.drains i r (hreactors ▸ hr)
    told := fun i r hr hsome => hrequest (h.told i r (hreactors ▸ hr) hsome)
    knows := hknows }

theorem Agrees.request (h : s.Agrees) (timeout : ℕ) (hr : s.reactors[i]? = some r) :
    r.DrainsWith (s.coordinator.requestShutdown .graceful timeout).drainTimeout := by
  intro hdraining
  have hrecorded := h.told_draining hr hdraining
  unfold Coordinator.requestShutdown
  rw [if_neg (by simpa using hrecorded)]
  exact h.drains i r hr hdraining

theorem requestShutdown_graceful (c : Coordinator) (timeout : ℕ) :
    (c.requestShutdown .graceful timeout).shutdownRequest ≠ .none := by
  rw [requestShutdown_request]
  intro hnone
  have hle := le_max_right c.shutdownRequest .graceful
  rw [hnone] at hle
  exact absurd hle (by decide)

theorem Agrees.newCall (h : s.Agrees) (timeout : ℕ) :
    (s.step (.shutdownGracefully timeout)).Agrees := by
  exact { h.toSound.step (.shutdownGracefully timeout) with
    graceful := List.forall_mem_append.mpr ⟨h.graceful, List.forall_mem_singleton.mpr rfl⟩
    drains := h.drains, told := h.told, knows := h.knows }

theorem Agrees.advanceCall (h : s.Agrees) {index : ℕ} (hpasses : s.PassesRecorded (.call index)) :
    (s.step (.call index)).Agrees := by
  have hsound := h.toSound.step (.call index)
  revert hsound
  show (s.advanceCall index).Sound → (s.advanceCall index).Agrees
  unfold LifecycleWorld.advanceCall
  split
  · exact fun _ => h
  rename_i call hcall
  have hgraceful := h.graceful call (List.mem_of_getElem? hcall)
  split
  · split
    · exact fun _ => h
    · rename_i hunlocked
      intro hsound
      refine { hsound with graceful := ?_, drains := ?_, told := ?_, knows := ?_ }
      · intro c hmem
        rcases List.mem_or_eq_of_mem_set hmem with hmem | rfl
        · exact h.graceful c hmem
        · exact hgraceful
      · intro i r hr
        rw [hgraceful]
        exact h.request call.timeout hr
      · intro i r hr hsome
        rw [hgraceful]
        exact requestShutdown_graceful _ _
      · have hknows := h.knows
        cases hs : s.starter with
        | relaying =>
          have hlocked : s.locked := by
            unfold locked
            rw [hs]
          exact absurd hlocked hunlocked
        | delivering =>
          rw [hgraceful]
          exact requestShutdown_graceful _ _
        | _ => trivial
  · exact fun _ => h
  · rename_i reactor rest hpending
    intro hsound
    have hknown := h.known call (List.mem_of_getElem? hcall) (by rw [hpending]; rfl)
    rw [hgraceful] at hknown hsound
    rw [hgraceful]
    refine h.modify hsound rfl rfl rfl ?_ h.knows ?_ ?_
    · intro c hmem
      rcases List.mem_or_eq_of_mem_set hmem with hmem | rfl
      · exact h.graceful c hmem
      · rfl
    · intro r hr
      refine (h.drains reactor r hr).graceful fun hrecords => ?_
      exact hpasses call hcall reactor (by rw [hpending]; rfl) r hr hrecords
    · intro r _ _ hnone
      rw [hnone] at hknown
      exact absurd hknown (by decide)

theorem Agrees.advanceStart (h : s.Agrees) (ok : Bool) : (s.step (.start ok)).Agrees := by
  have hsound := h.toSound.step (.start ok)
  revert hsound
  show (s.advanceStart ok).Sound → (s.advanceStart ok).Agrees
  have hstarter := h.starter
  unfold LifecycleWorld.advanceStart
  split <;> rename_i hs <;> rw [hs] at hstarter
  · split
    · exact fun hsound => h.moveOn hsound rfl rfl rfl id trivial
    · exact fun hsound => h.moveOn hsound rfl rfl rfl id trivial
  · split
    · exact fun hsound => h.moveOn hsound rfl rfl rfl id trivial
    · rename_i r hr
      split
      · exact fun hsound => h.moveOn hsound rfl rfl rfl id trivial
      · rename_i hfresh
        rw [not_or, not_not] at hfresh
        intro hsound
        refine h.modify hsound rfl rfl rfl h.graceful ?_ ?_ ?_
        · rfl
        · intro r' hr' hdraining
          obtain rfl := Option.some.inj (hr.symm.trans hr')
          have hnone := (h.consistent _ r hr).initialized hfresh.1
          rcases hdraining with hstate | ⟨_, hgraceful⟩
          · cases hstate
          · cases hnone.symm.trans hgraceful
        · intro r' hr'
          exact h.told _ r' hr'
  · rename_i index request timeout
    have hrecorded : timeout = s.coordinator.drainTimeout := by
      have hknows := h.knows
      rwa [hs] at hknows
    dsimp only
    split
    · exact fun hsound => h.moveOn hsound rfl rfl rfl id trivial
    · rename_i hrequest
      intro hsound
      refine h.modify hsound rfl rfl rfl h.graceful trivial ?_ ?_
      · intro r hr
        cases request with
        | none => exact absurd rfl hrequest
        | graceful => exact (h.drains index r hr).graceful fun _ => hrecorded
        | immediate => exact (h.drains index r hr).immediate
      · exact fun _ _ _ => hstarter.2.2 ▸ hrequest
  · split
    · exact fun _ => h
    · split
      · exact fun _ => h
      · split
        · exact fun hsound => h.moveOn hsound rfl rfl rfl id trivial
        · exact fun hsound => h.moveOn hsound rfl rfl rfl id trivial
  · exact fun hsound => h.moveOn hsound rfl rfl rfl id trivial
  · exact fun hsound => h.moveOn hsound rfl rfl rfl (fun _ => nofun) nofun
  · exact fun hsound => h.moveOn hsound rfl rfl rfl id trivial
  · rename_i reactor rest
    intro hsound
    have hrequested : s.coordinator.shutdownRequest ≠ .none := by
      have hknows := h.knows
      rwa [hs] at hknows
    exact h.modify hsound rfl rfl rfl h.graceful hrequested
      (fun r hr => (h.drains reactor r hr).immediate) fun _ _ _ => hrequested
  · exact fun hsound => h.moveOn hsound rfl rfl rfl id trivial
  · split
    · exact fun hsound => h.moveOn hsound rfl rfl rfl id trivial
    · exact fun _ => h
  · exact fun _ => h

variable {event : Event}

theorem Agrees.step (h : s.Agrees) (hgraceful : event ≠ .shutdown)
    (hpasses : s.PassesRecorded event) : (s.step event).Agrees := by
  cases event with
  | shutdown => exact absurd rfl hgraceful
  | shutdownGracefully timeout => exact h.newCall timeout
  | call => exact h.advanceCall hpasses
  | start ok => exact h.advanceStart ok
  | reactor index event =>
    refine h.modify (h.toSound.step (.reactor index event)) rfl rfl rfl h.graceful h.knows ?_ ?_
    · exact fun r hr => (h.drains index r hr).next event
    · intro r hr hsome
      refine h.told index r hr fun hnone => hsome ?_
      rw [← hnone]
      exact Reactor.next_shutdownRequest r event

theorem initial_agrees (reactorCount : ℕ) : (initial reactorCount).Agrees := by
  refine { initial_sound reactorCount with
    graceful := nofun, drains := fun i r hr => ?_, told := fun i r hr => ?_, knows := trivial }
  · obtain rfl := (List.mem_replicate.mp (List.mem_of_getElem? hr)).2
    exact nofun
  · obtain rfl := (List.mem_replicate.mp (List.mem_of_getElem? hr)).2
    exact fun hsome => absurd rfl hsome

theorem advanceStart_drainTimeout (s : LifecycleWorld) (ok : Bool) :
    (s.advanceStart ok).coordinator.drainTimeout = s.coordinator.drainTimeout ∧
      ((s.advanceStart ok).coordinator.shutdownRequest = s.coordinator.shutdownRequest ∨
        (s.advanceStart ok).coordinator.shutdownRequest = .immediate) := by
  unfold LifecycleWorld.advanceStart
  split
  · split <;> exact ⟨rfl, .inl rfl⟩
  · split
    · exact ⟨rfl, .inl rfl⟩
    · split <;> exact ⟨rfl, .inl rfl⟩
  · dsimp only
    split <;> exact ⟨rfl, .inl rfl⟩
  · split
    · exact ⟨rfl, .inl rfl⟩
    · split
      · exact ⟨rfl, .inl rfl⟩
      · split <;> exact ⟨rfl, .inl rfl⟩
  · exact ⟨rfl, .inl rfl⟩
  · exact ⟨rfl, .inr rfl⟩
  · exact ⟨rfl, .inl rfl⟩
  · exact ⟨rfl, .inl rfl⟩
  · exact ⟨rfl, .inl rfl⟩
  · split <;> exact ⟨rfl, .inl rfl⟩
  · exact ⟨rfl, .inl rfl⟩

theorem advanceCall_coordinator (s : LifecycleWorld) (index : ℕ) :
    (s.advanceCall index).coordinator = s.coordinator ∨
      ∃ call, s.calls[index]? = some call ∧ (s.advanceCall index).coordinator =
        s.coordinator.requestShutdown call.request call.timeout := by
  unfold LifecycleWorld.advanceCall
  split
  · exact .inl rfl
  · rename_i call hcall
    split
    · split
      · exact .inl rfl
      · exact .inr ⟨call, hcall, rfl⟩
    · exact .inl rfl
    · exact .inl rfl

theorem Agrees.keeps (h : s.Agrees) (hrecorded : s.coordinator.shutdownRequest ≠ .none)
    (hgraceful : event ≠ .shutdown) :
    (s.step event).coordinator.drainTimeout = s.coordinator.drainTimeout ∧
      (s.step event).coordinator.shutdownRequest ≠ .none := by
  cases event with
  | shutdown => exact absurd rfl hgraceful
  | shutdownGracefully | reactor => exact ⟨rfl, hrecorded⟩
  | call index =>
    rcases s.advanceCall_coordinator index with hsame | ⟨call, hcall, hrequest⟩
    · exact ⟨congrArg Coordinator.drainTimeout hsame, fun hnone => hrecorded (hsame ▸ hnone)⟩
    · rw [h.graceful call (List.mem_of_getElem? hcall)] at hrequest
      refine ⟨(congrArg Coordinator.drainTimeout hrequest).trans ?_,
        fun hnone => requestShutdown_graceful s.coordinator call.timeout (hrequest ▸ hnone)⟩
      unfold Coordinator.requestShutdown
      rw [if_neg (by simpa using hrecorded)]
  | start ok =>
    obtain ⟨htimeout, hsame | himmediate⟩ := s.advanceStart_drainTimeout ok
    · exact ⟨htimeout, fun hnone => hrecorded (hsame.symm.trans hnone)⟩
    · exact ⟨htimeout, fun hnone => by cases himmediate.symm.trans hnone⟩

theorem step_records (hnone : s.coordinator.shutdownRequest = .none)
    (hfirst : (s.step event).coordinator.shutdownRequest = .graceful) :
    ∃ index call, event = .call index ∧ s.calls[index]? = some call ∧
      (s.step event).coordinator.drainTimeout = call.timeout := by
  cases event with
  | shutdown | shutdownGracefully | reactor => cases hnone.symm.trans hfirst
  | call index =>
    rcases s.advanceCall_coordinator index with hsame | ⟨call, hcall, hrequest⟩
    · have hfirst' : (s.advanceCall index).coordinator.shutdownRequest = .graceful := hfirst
      rw [hsame] at hfirst'
      cases hnone.symm.trans hfirst'
    · refine ⟨index, call, rfl, hcall, ?_⟩
      show (s.advanceCall index).coordinator.drainTimeout = call.timeout
      rw [hrequest]
      unfold Coordinator.requestShutdown
      rw [if_pos (.inr hnone)]
  | start ok =>
    obtain ⟨-, hsame | himmediate⟩ := s.advanceStart_drainTimeout ok
    · cases hnone.symm.trans (hsame.symm.trans hfirst)
    · cases himmediate.symm.trans hfirst

end Steps

/-- The steps that the result below is about: graceful requests, passed on as the coordinator has
recorded them. -/
def Orderly (s : LifecycleWorld) (event : Event) : Prop :=
  event ≠ .shutdown ∧ s.PassesRecorded event

instance (s : LifecycleWorld) (event : Event) : Decidable (s.Orderly event) :=
  inferInstanceAs (Decidable (_ ∧ _))

/-- In every run in which no caller passes another timeout on to a reactor that takes it over, every
reactor drains with the timeout of the first graceful request that was accepted. -/
theorem drain_timeouts_agree (reactorCount : ℕ) (events : List Event)
    (horderly : Run.Meets step Orderly (initial reactorCount) events) :
    let s := Run.final step (initial reactorCount) events
    s.DrainsAsRecorded ∧
      ∀ before event after, events = before ++ event :: after →
        let s₀ := Run.final step (initial reactorCount) before
        s₀.coordinator.shutdownRequest = .none →
        (s₀.step event).coordinator.shutdownRequest = .graceful →
        ∃ index call, event = .call index ∧ s₀.calls[index]? = some call ∧
          s.coordinator.drainTimeout = call.timeout := by
  intro s
  have hstep : ∀ s event, Agrees s → s.Orderly event → (s.step event).Agrees :=
    fun _ _ h hstep => h.step hstep.1 hstep.2
  constructor
  · intro r hmem hdraining
    obtain ⟨i, hr⟩ := List.mem_iff_getElem?.mp hmem
    have hagrees : s.Agrees := Run.invariant hstep (initial_agrees reactorCount) horderly
    exact hagrees.drains i r hr (.inl hdraining)
  · rintro before event after rfl s₀ hnone hfirst
    obtain ⟨hbefore, hevent, hafter⟩ := Run.meets_append.mp horderly
    have hagrees : s₀.Agrees := Run.invariant hstep (initial_agrees reactorCount) hbefore
    obtain ⟨index, call, rfl, hcall, htimeout⟩ := step_records hnone hfirst
    refine ⟨index, call, rfl, hcall, ?_⟩
    -- From here on the recorded timeout stays.
    have hkept : s.Agrees ∧ s.coordinator.drainTimeout = call.timeout ∧
        s.coordinator.shutdownRequest ≠ .none := by
      unfold s
      rw [Run.final_append, Run.final_cons]
      refine Run.invariant (I := fun s : LifecycleWorld => s.Agrees ∧
        s.coordinator.drainTimeout = call.timeout ∧ s.coordinator.shutdownRequest ≠ .none) ?_
          ⟨hstep _ _ hagrees hevent, htimeout, ?_⟩ hafter
      · rintro s event ⟨h, hsame, hrecorded⟩ horderly
        obtain ⟨hkeeps, hstill⟩ := h.keeps hrecorded horderly.1
        exact ⟨hstep s event h horderly, hkeeps.trans hsame, hstill⟩
      · rw [hfirst]
        nofun
    exact hkept.2.1

def twoReactors : List Event :=
  [.start true, .start true, .start true, .reactor 0 (.signalStarted false), .start true,
    .start true, .start true, .reactor 1 (.signalStarted false), .start true, .start true,
    .start true]

/-- Two callers, of which the first one also reaches the reactors first. -/
theorem drain_timeouts_agree_two :
    let s :=
      Run.final step (initial 2) (twoReactors ++ [.shutdownGracefully 5, .shutdownGracefully 10,
      .call 0, .call 1, .call 0, .call 1, .call 0, .call 1])
    (s.reactors.map fun r => (r.state, r.drainTimeout)) = [(.draining, 5), (.draining, 5)] ∧
      s.DrainsAsRecorded :=
  ⟨by decide, (drain_timeouts_agree 2 _ (by decide)).1⟩

/-- The second caller overtakes the first one on its way to the first reactor. -/
theorem drain_timeouts_differ :
    let s :=
      Run.final step (initial 2) (twoReactors ++ [.shutdownGracefully 5, .shutdownGracefully 10,
      .call 0, .call 1, .call 1, .call 0, .call 0, .call 1])
    s.coordinator.drainTimeout = 5 ∧
      (s.reactors.map fun r => (r.state, r.drainTimeout)) = [(.draining, 10), (.draining, 5)] ∧
      ¬s.DrainsAsRecorded := by
  decide

end LifecycleWorld

end GrpcLite.Server
