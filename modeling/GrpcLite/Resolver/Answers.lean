import GrpcLite.Resolver.Watches

/-!
# The answers of the resolver

A failed allocation sets `integration_failed`; a timer turns that flag into `force_failure`, which
makes the query that completes next fail.  A query that starts while neither is set and during which
no allocation fails gets what c-ares reports.
-/

namespace GrpcLite.Resolver

open Prog

/-- What a completed query without a failed allocation got. -/
structure Completed.Sound (c : Completed) : Prop where
  unforced : c.forced = false → c.answer =
    if c.query.forceFailure then .failed else outcome c.status c.nodes c.query.port false
  forced : c.forced = true → c.query.integrationFailed = true ∧ c.status = .cancelled

/-- While a query without a failed allocation runs, the flags are those that it found. -/
structure Answering (a : Adapter) : Prop where
  active : a.queryActive = a.callback.isSome
  port : ∀ query, a.callback = some query → a.port = query.port
  integrationFailed : ∀ query, a.callback = some query → query.failure = false →
    a.integrationFailed = query.integrationFailed
  forceFailure : ∀ query, a.callback = some query → query.failure = false →
    a.forceFailure = query.forceFailure
  completed : ∀ c ∈ a.completed, c.query.failure = false → c.Sound

section Keeps

variable {α β : Type}

def KeepsAnswers (x : AdapterM α) : Prop :=
  ∀ a, Answering a → wp x (fun _ a' => Answering a') (fun _ _ => True) a

theorem KeepsAnswers.pure (r : α) : KeepsAnswers (pure r) := fun _ h => h

theorem KeepsAnswers.get : KeepsAnswers get := fun _ h => h

theorem KeepsAnswers.bind {x : AdapterM α} {f : α → AdapterM β} (hx : KeepsAnswers x)
    (hf : ∀ r, KeepsAnswers (f r)) : KeepsAnswers (x >>= f) := by
  intro a h
  rw [wp_bind]
  exact wp_mono (hx a h) (fun r b hb => hf r b hb) fun _ _ _ => trivial

theorem KeepsAnswers.ite {p : Prop} [Decidable p] {x y : AdapterM α} (hx : KeepsAnswers x)
    (hy : KeepsAnswers y) : KeepsAnswers (if p then x else y) := by
  split
  · exact hx
  · exact hy

theorem keepsAnswers_onWatches (x : WatchM α) : KeepsAnswers (onWatches x) := by
  intro a h
  rw [onWatches_wp]
  refine wp_of_forall (fun _ w => ?_) fun _ _ => trivial
  exact ⟨h.active, h.port, h.integrationFailed, h.forceFailure, h.completed⟩

theorem keepsAnswers_rescheduleTimeout (pending : Bool) :
    KeepsAnswers (rescheduleTimeout pending) := by
  have hschedule : KeepsAnswers scheduleTimer := fun a h =>
    ⟨h.active, h.port, h.integrationFailed, h.forceFailure, h.completed⟩
  exact KeepsAnswers.get.bind fun a => .ite (.pure ()) (.ite hschedule (.ite hschedule (.pure ())))

theorem keepsAnswers_failIntegration : KeepsAnswers failIntegration := by
  refine KeepsAnswers.bind ?_ fun _ => keepsAnswers_rescheduleTimeout false
  intro a h
  refine ⟨?_, ?_, ?_, ?_, h.completed⟩
  · dsimp only
    rw [h.active, Option.isSome_map]
  · intro query hquery
    obtain ⟨started, hstarted, rfl⟩ := Option.map_eq_some_iff.mp hquery
    exact h.port started hstarted
  · intro query hquery hclean
    obtain ⟨started, hstarted, rfl⟩ := Option.map_eq_some_iff.mp hquery
    cases hclean
  · intro query hquery hclean
    obtain ⟨started, hstarted, rfl⟩ := Option.map_eq_some_iff.mp hquery
    cases hclean

theorem keepsAnswers_onSocketState (fd : Fd) (readable writable : Bool) (memory : Memory) :
    KeepsAnswers (onSocketState fd readable writable memory) :=
  (keepsAnswers_onWatches _).bind fun _ => .ite keepsAnswers_failIntegration (.pure _)

end Keeps

theorem outcome_eq {status : Status} {nodes : Option (List Node)} {oom : Bool}
    (h : (oom && allocates status nodes) = false) (port : ℕ) :
    outcome status nodes port oom = outcome status nodes port false := by
  cases oom with
  | false => rfl
  | true =>
    cases status <;> cases nodes <;> first
      | rfl
      | cases h

theorem Answering.complete {a : Adapter} {c : Completed}
    (h : ∀ c ∈ a.completed, c.query.failure = false → c.Sound)
    (hc : c.query.failure = false → c.Sound) (forceFailure : Bool) :
    Answering { a with
      queryActive := false
      callback := none
      forceFailure := forceFailure
      completed := a.completed ++ [c] } := by
  exact ⟨rfl, nofun, nofun, nofun, List.forall_mem_append.mpr ⟨h, List.forall_mem_singleton.mpr hc⟩⟩

theorem keepsAnswers_onResolved (status : Status) (nodes : Option (List Node)) (oom : Bool) :
    KeepsAnswers (onResolved false status nodes oom) := by
  intro a h
  unfold onResolved
  simp only [wp_bind, wp_modify, wp_get]
  cases hquery : a.callback with
  | none => exact ⟨rfl, by simp, by simp, by simp, h.completed⟩
  | some query =>
    simp only [wp_bind, wp_modify, wp_get]
    split
    · rename_i hforce
      refine Answering.complete h.completed (fun hclean =>
        ⟨fun _ => ?_, fun h => Bool.noConfusion h⟩)
        false
      have hflag := h.forceFailure query hquery hclean
      rw [hforce] at hflag
      simp [← hflag]
    · rename_i hforce
      rw [wp_modify]
      refine Answering.complete h.completed (fun hclean =>
        ⟨fun _ => ?_, fun h => Bool.noConfusion h⟩)
        a.forceFailure
      obtain ⟨hclean, halloc⟩ := Bool.or_eq_false_iff.mp hclean
      have hflag := h.forceFailure query hquery hclean
      dsimp only
      rw [← hflag, if_neg hforce, outcome_eq halloc, h.port query hquery]

theorem keepsAnswers_callBacks (callbacks : List Callback) : KeepsAnswers
    (callBacks callbacks) := by
  induction callbacks with
  | nil => exact .pure ()
  | cons callback rest ih =>
    refine KeepsAnswers.bind ?_ fun _ => ih
    cases callback with
    | socketState fd readable writable memory =>
      exact keepsAnswers_onSocketState fd readable writable memory
    | resolved status nodes oom =>
      exact KeepsAnswers.get.bind fun a => .ite (keepsAnswers_onResolved status nodes oom) (.pure _)

theorem keepsAnswers_endQuery (status : Status) : KeepsAnswers (endQuery false status) :=
  KeepsAnswers.get.bind fun _ => .ite (keepsAnswers_onResolved status none false) (.pure _)

theorem keepsAnswers_aresCancel (callbacks : List Callback) :
    KeepsAnswers (aresCancel false callbacks) :=
  (keepsAnswers_endQuery .cancelled).bind fun _ => keepsAnswers_callBacks callbacks

theorem keepsAnswers_closeAll (ids : List ℕ) : KeepsAnswers (closeAll ids) := by
  induction ids with
  | nil => exact .pure ()
  | cons id rest ih =>
    refine KeepsAnswers.get.bind fun a => ?_
    cases a.memory id with
    | none => exact ih
    | some watch => exact (keepsAnswers_onSocketState watch.fd false false {}).bind fun _ => ih

theorem keepsAnswers_shutdown (cancelling destroying : List Callback) :
    KeepsAnswers (shutdown cancelling destroying) := by
  have hdestroying : KeepsAnswers (modify fun a : Adapter => { a with destroying := true }) :=
    fun a h => ⟨h.active, h.port, h.integrationFailed, h.forceFailure, h.completed⟩
  have hclosed : KeepsAnswers (modify fun a : Adapter => { a with channel := false }) :=
    fun a h => ⟨h.active, h.port, h.integrationFailed, h.forceFailure, h.completed⟩
  have hdestroy : KeepsAnswers (aresDestroy destroying) :=
    (keepsAnswers_endQuery .destruction).bind fun _ =>
      (keepsAnswers_callBacks destroying).bind fun _ =>
        KeepsAnswers.get.bind fun _ => keepsAnswers_closeAll _
  have hrest : KeepsAnswers (do
      aresDestroy destroying
      modify fun a : Adapter => { a with channel := false }
      stopTimer) := hdestroy.bind fun _ => hclosed.bind fun _ => .pure ()
  refine KeepsAnswers.get.bind fun a => .ite ?_ (.pure _)
  refine hdestroying.bind fun _ => KeepsAnswers.get.bind fun b => ?_
  exact .ite ((keepsAnswers_aresCancel cancelling).bind fun _ => hrest) hrest

theorem keepsAnswers_resolve (port context : ℕ) (callbacks : List Callback) (pending : Bool) :
    KeepsAnswers (resolve port context callbacks pending) := by
  intro a h
  unfold resolve
  simp only [wp_bind, wp_get]
  split
  · exact h
  split
  · exact h
  simp only [wp_bind, wp_set]
  refine wp_mono (keepsAnswers_callBacks callbacks _ ?_) ?_ fun _ _ _ => trivial
  · refine ⟨rfl, ?_, ?_, ?_, h.completed⟩
    all_goals
      rintro query ⟨⟩
    · rfl
    · exact fun _ => rfl
    · exact fun _ => rfl
  · intro _ b hb
    exact wp_mono (keepsAnswers_rescheduleTimeout pending b hb) (fun _ _ hc => hc) fun _ _ _ =>
      trivial

theorem keepsAnswers_onTimer (fired : Bool) (callbacks : List Callback) (pending : Bool) :
    KeepsAnswers (onTimer fired callbacks pending) := by
  intro a h
  unfold onTimer
  simp only [wp_bind, wp_modify, wp_get]
  split
  swap
  · exact ⟨h.active, h.port, h.integrationFailed, h.forceFailure, h.completed⟩
  split
  · rename_i hfailed
    simp only [wp_bind, wp_modify]
    cases hquery : a.callback with
    | none =>
      have hidle : a.queryActive = false := by rw [h.active, hquery]; rfl
      simp only [hidle, Bool.false_eq_true, if_false, wp_pure]
      exact ⟨rfl, by simp, by simp, by simp, h.completed⟩
    | some query =>
      have hactive : a.queryActive = true := by rw [h.active, hquery]; rfl
      simp only [hactive, if_true, aresCancel, endQuery, onResolved, wp_bind, wp_get, wp_modify]
      refine keepsAnswers_callBacks callbacks _ (Answering.complete
        (a := { a with timerArmed := false, integrationFailed := false }) h.completed
        (fun hclean => ?_) false)
      exact ⟨fun h => Bool.noConfusion h, fun _ =>
        ⟨(h.integrationFailed query hquery hclean).symm.trans hfailed, rfl⟩⟩
  · exact (keepsAnswers_callBacks callbacks).bind
      (fun _ => keepsAnswers_rescheduleTimeout pending) _
      ⟨h.active, h.port, h.integrationFailed, h.forceFailure, h.completed⟩

theorem keepsAnswers_handle (event : Event) : KeepsAnswers (handle event) := by
  cases event with
  | resolve port context callbacks pending =>
    exact (keepsAnswers_resolve port context callbacks pending).bind fun _ => .pure ()
  | cancel callbacks pending =>
    refine KeepsAnswers.get.bind fun a => .ite ?_ (.pure _)
    exact (keepsAnswers_aresCancel callbacks).bind fun _ => keepsAnswers_rescheduleTimeout pending
  | shutdown cancelling destroying => exact keepsAnswers_shutdown cancelling destroying
  | ready id direction polled callbacks pending =>
    refine KeepsAnswers.get.bind fun a => .ite ?_ (.pure _)
    refine (keepsAnswers_onWatches _).bind fun wanted => ?_
    have hprocess : KeepsAnswers (processFd callbacks pending) :=
      KeepsAnswers.get.bind fun b => .ite
        ((keepsAnswers_callBacks callbacks).bind fun _ => keepsAnswers_rescheduleTimeout pending)
        (.pure _)
    exact .ite (hprocess.bind fun _ => keepsAnswers_onWatches _) (keepsAnswers_onWatches _)
  | cancelled => exact KeepsAnswers.get.bind fun a => .ite (keepsAnswers_onWatches _) (.pure _)
  | timer fired callbacks pending =>
    exact KeepsAnswers.get.bind fun a => .ite (keepsAnswers_onTimer fired callbacks pending)
      (.pure _)

theorem keepsAnswers_handleAll (events : List Event) : KeepsAnswers (handleAll events) := by
  induction events with
  | nil => exact .pure ()
  | cons event rest ih => exact (keepsAnswers_handle event).bind fun _ => ih

theorem initial_answering : Answering {} := ⟨rfl, nofun, nofun, nofun, nofun⟩

/-- A query without a failed allocation that c-ares completes with an address gets its addresses if
and only if `force_failure` was not set when it started.  If `integration_failed` was not set
either, it gets what c-ares reports, and the adapter does not cancel it by force. -/
theorem resolver_answers (events : List Event) :
    ∃ a, (handleAll events).run {} = .ok () a ∧ ∀ c ∈ a.completed, c.query.failure = false →
      (∀ nodes, c.status = .success → c.nodes = some nodes → inetAddresses c.query.port nodes ≠ [] →
        (c.answer = .addresses (inetAddresses c.query.port nodes) ↔ c.query.forceFailure = false)) ∧
      (c.query.integrationFailed = false → c.query.forceFailure = false → c.forced = false ∧
        c.answer = outcome c.status c.nodes c.query.port false) := by
  have hspec := wp_and (handleAll_spec initial_boundary events)
    (keepsAnswers_handleAll events {} initial_answering)
  obtain ⟨_, a, hrun, -, hanswering⟩ := ok_of_wp
    (wp_mono hspec (fun _ _ h => h) fun _ _ hfault => hfault.1)
  refine ⟨a, hrun, fun c hmem hclean => ?_⟩
  have hsound := hanswering.completed c hmem hclean
  constructor
  · intro nodes hstatus hnodes hsome
    have hunforced : c.forced = false := by
      refine Bool.eq_false_iff.mpr fun hforced => ?_
      have hcancelled := (hsound.forced hforced).2
      rw [hstatus] at hcancelled
      cases hcancelled
    have houtcome : outcome c.status c.nodes c.query.port false =
        .addresses (inetAddresses c.query.port nodes) := by
      rw [hstatus, hnodes]
      unfold outcome
      cases haddresses : inetAddresses c.query.port nodes with
      | nil => exact absurd haddresses hsome
      | cons => simp [haddresses]
    rw [hsound.unforced hunforced, houtcome]
    cases c.query.forceFailure with
    | false => simp
    | true => simp
  · intro hintegration hforce
    have hunforced : c.forced = false := by
      refine Bool.eq_false_iff.mpr fun hforced => ?_
      have hfailed := (hsound.forced hforced).1
      rw [hintegration] at hfailed
      cases hfailed
    refine ⟨hunforced, ?_⟩
    rw [hsound.unforced hunforced, hforce]
    rfl

def localhost : List Node := [.inet #v[127, 0, 0, 1]]

theorem resolver_answers_localhost : ∃ a,
    (handleAll [.resolve 50051 7 [.resolved .success (some localhost) false] true]).run {} =
      .ok () a ∧ ∃ c ∈ a.completed, c.query.failure = false ∧
        c.answer = .addresses [⟨#v[127, 0, 0, 1], 50051⟩] := by
  obtain ⟨a, hrun, hanswers⟩ :=
    resolver_answers [.resolve 50051 7 [.resolved .success (some localhost) false] true]
  obtain ⟨b, hb, c, hc, hquery, hstatus, hnodes⟩ : ∃ b,
      (handleAll [.resolve 50051 7 [.resolved .success (some localhost) false] true]).run {} =
        .ok () b ∧ ∃ c ∈ b.completed, c.query = ⟨7, 50051, false, false, false⟩ ∧
          c.status = .success ∧ c.nodes = some localhost :=
    ⟨_, rfl, _, List.mem_singleton_self _, rfl, rfl, rfl⟩
  obtain rfl : a = b := by
    have hsame := hrun.symm.trans hb
    injection hsame
  have hclean : c.query.failure = false := by rw [hquery]
  refine ⟨a, hrun, c, hc, hclean, ?_⟩
  have hanswer := (hanswers c hc hclean).1 localhost hstatus hnodes
  rw [hquery] at hanswer
  exact (hanswer (by decide)).mpr rfl

/-- No memory for the watch of a socket of the first query, which c-ares completes before the timer
fires.  The timer fires between the queries.  The second query is answered with a failure. -/
def staleFailure : List Event :=
  [.resolve 50051 1 [.socketState 5 true false { watchFails := true },
      .resolved .success (some localhost) false] true,
    .timer true [] false,
    .resolve 50051 2 [.resolved .success (some localhost) false] true]

theorem staleFailure_answers : ∃ a, (handleAll staleFailure).run {} = .ok () a ∧
    a.completed = [⟨⟨1, 50051, false, false, true⟩, false, .success, some localhost,
        .addresses [⟨#v[127, 0, 0, 1], 50051⟩]⟩,
      ⟨⟨2, 50051, false, true, false⟩, false, .success, some localhost, .failed⟩] :=
  ⟨_, rfl, rfl⟩

end GrpcLite.Resolver
