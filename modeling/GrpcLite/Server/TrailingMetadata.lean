import Mathlib.Data.List.Nodup
import GrpcLite.Server.Delivery
import GrpcLite.Server.Steps

/-!
# Trailing metadata

A finish and a failure both append to the trailing metadata of the stream, and both can come
before the trailers are submitted.  The history keeps every entry as it is set, and from the
history of the events that ended the call it follows what the trailers hold.
-/

namespace GrpcLite.Server

open Prog

def setFrom (source : TrailerSource) (set : List (TrailerSource × Entry)) : List Entry :=
  (set.filter (·.1 = source)).map (·.2)

def Log.handlerEntries (log : Log) : List Entry := log.trailingSet.map (·.2)

/-- The handler's entries come from one place and in time, as far as the events that ended the call
look at them. -/
structure Log.Unmixed (log : Log) : Prop where
  /-- A failure follows a finish that took its entries from the context only if there were none. -/
  once : (∃ t ∈ log.terminations, t.event = .failure) →
    ∀ t ∈ log.terminations, t.event = .finish → t.source = .context → t.context = []
  /-- Unless a failure follows, a finish with its own entries finds none in the context. -/
  alone : (∀ t ∈ log.terminations, t.event = .finish) →
    ∀ t ∈ log.terminations, t.source = .given → t.context = []
  /-- A finish that a failure overtakes has no entries of its own. -/
  inTime : (∀ t ∈ log.terminations, t.event = .failure) → setFrom .given log.trailingSet = []
  /-- The context gets no entry after the last of these events. -/
  early : setFrom .context log.trailingSet = (log.terminations.getLast?.map (·.context)).getD []
  /-- No entry of the context comes before those of a finish. -/
  first : log.trailingSet.Pairwise fun a b => b.1 = .given → a.1 = .given

structure World.Trailing (w : World) : Prop where
  copied : (∀ t ∈ w.log.terminations, t.complete) →
    w.stream.trailingMetadata = (w.log.terminations.map (·.entries)).flatten
  valid : ∀ entry ∈ w.stream.trailingMetadata, isApplicationKey entry.key
  unended : w.stream.responseFinished = false → w.log.terminations = []
  ordered : w.log.terminations.Pairwise fun a b => a.event = .finish ∧ b.event = .failure
  contextSet : w.contextTrailing = setFrom .context w.log.trailingSet
  earlier : ∀ t ∈ w.log.terminations, t.context <+: setFrom .context w.log.trailingSet
  ungiven : w.stream.finishQueued = false → setFrom .given w.log.trailingSet = []
  queued : ∀ status trailing, .finish status trailing ∈ w.queue →
    setFrom .given w.log.trailingSet = trailing.getD []
  finish : ∀ t ∈ w.log.terminations, t.event ≠ .failure → t.event = .finish ∧
    setFrom .given w.log.trailingSet = if t.source = .given then t.entries else []
  failure : ∀ t ∈ w.log.terminations, t.event = .failure → t.source = .context
  context : ∀ t ∈ w.log.terminations, t.source = .context → t.entries = t.context
  ended : w.stream.trailerSubmitted → w.stream.responseFinished
  trailers : ∀ trailers, w.log.trailers = some trailers →
    w.stream.trailerSubmitted ∧ trailers.metadata = w.stream.trailingMetadata

/-! ## Entries by their source -/

section SetFrom

variable {source : TrailerSource} {set : List (TrailerSource × Entry)}

theorem setFrom_append (source : TrailerSource) (set more : List (TrailerSource × Entry)) :
    setFrom source (set ++ more) = setFrom source set ++ setFrom source more := by
  simp [setFrom]

theorem setFrom_map_self (source : TrailerSource) (entries : List Entry) :
    setFrom source (entries.map (source, ·)) = entries := by
  simp [setFrom, List.filter_map, Function.comp_def]

theorem setFrom_map_of_ne {other : TrailerSource} (hother : other ≠ source)
    (entries : List Entry) : setFrom source (entries.map (other, ·)) = [] := by
  simp [setFrom, List.filter_map, Function.comp_def, hother]

theorem filter_append_filter {α : Type*} (p : α → Prop) [DecidablePred p] {l : List α}
    (hfirst : l.Pairwise fun a b => p b → p a) : l.filter p ++ l.filter (¬p ·) = l := by
  induction hfirst with
  | nil => rfl
  | @cons a l hhead _ ih =>
    by_cases ha : p a
    · simpa [ha] using ih
    · -- nothing that is out may be followed by something that is in
      have hout : ∀ b ∈ l, ¬p b := fun b hb hp => ha (hhead b hb hp)
      rw [List.filter_eq_nil_iff.mpr (by simpa [ha] using hout), List.nil_append]
      exact List.filter_eq_self.mpr (by simpa [ha] using hout)

/-- The entries given to a finish come first, so that the two sources in a row are the history. -/
theorem setFrom_of_first (hfirst : set.Pairwise fun a b => b.1 = .given → a.1 = .given) :
    setFrom .given set ++ setFrom .context set = set.map (·.2) := by
  have hrest : set.filter (·.1 = .context) = set.filter (¬·.1 = .given) :=
    List.filter_congr fun a _ => by cases a.1 <;> rfl
  rw [setFrom, setFrom, hrest, ← List.map_append, filter_append_filter _ hfirst]

end SetFrom

/-! ## Entries and their keys -/

/-- The names that `submitTrailers` writes itself are not keys of application metadata. -/
theorem isReservedTrailer_eq_false {key : Bytes} (h : isApplicationKey key) :
    isReservedTrailer key = false := by
  by_contra hreserved
  simp only [isReservedTrailer, Bool.or_eq_true, beq_iff_eq, Bool.not_eq_false] at hreserved
  rcases hreserved with rfl | rfl
  · exact absurd h (by decide)
  · exact absurd h (by decide)

variable {w : World} {log : Log}

theorem World.Trailing.filter (h : w.Trailing) :
    (w.stream.trailingMetadata.filter fun entry => !isReservedTrailer entry.key) =
      w.stream.trailingMetadata := by
  refine List.filter_eq_self.mpr fun entry hentry => ?_
  rw [isReservedTrailer_eq_false (h.valid entry hentry)]
  rfl

/-! ## The invariant -/

theorem contextTrailing_map (w : World) {f : StreamingState → StreamingState}
    (hf : ∀ st, (f st).context.trailingMetadata = st.context.trailingMetadata) :
    World.contextTrailing
      { w with stream := { w.stream with streaming := w.stream.streaming.map f } } =
      w.contextTrailing := by
  simp [World.contextTrailing, Function.comp_def, hf]

theorem contextTrailing_addTrailing (hstarted : w.stream.streaming.isSome) (entry : Entry) :
    World.contextTrailing { w with stream := { w.stream with
      streaming := w.stream.streaming.map (·.addTrailing entry) } } =
      w.contextTrailing ++ [entry] := by
  obtain ⟨st, hst⟩ := Option.isSome_iff_exists.mp hstarted
  simp [World.contextTrailing, hst, StreamingState.addTrailing]

theorem World.Trailing.mapStreaming (h : w.Trailing) {f : StreamingState → StreamingState}
    (hf : ∀ st, (f st).context.trailingMetadata = st.context.trailingMetadata) :
    World.Trailing
      { w with stream := { w.stream with streaming := w.stream.streaming.map f } } :=
  { h with contextSet := (contextTrailing_map w hf).trans h.contextSet }

/-- A command that is not a finish is queued. -/
theorem World.Trailing.enqueue (h : w.Trailing) (command : CommandAction)
    (hcommand : command.isFinish = false) :
    World.Trailing { w with commands := w.commands ++ [command] } := by
  refine { h with queued := fun status trailing hmem => ?_ }
  rw [World.queue, ← List.append_assoc] at hmem
  rcases List.mem_append.mp hmem with hmem | hmem
  · exact h.queued status trailing hmem
  · rw [← List.mem_singleton.mp hmem] at hcommand
    exact absurd hcommand Bool.false_ne_true.symm

/-- The context gets an entry. -/
theorem World.Trailing.addTrailing (h : w.Trailing) (hstarted : w.stream.streaming.isSome)
    (entry : Entry) :
    World.Trailing { w with
      stream := { w.stream with streaming := w.stream.streaming.map (·.addTrailing entry) }
      log := { w.log with trailingSet := w.log.trailingSet ++ [(.context, entry)] } } := by
  have hgiven : setFrom .given (w.log.trailingSet ++ [(.context, entry)]) =
      setFrom .given w.log.trailingSet := by
    rw [setFrom_append]
    exact List.append_nil _
  have hcontext : setFrom .context (w.log.trailingSet ++ [(.context, entry)]) =
      setFrom .context w.log.trailingSet ++ [entry] := setFrom_append _ _ _
  refine { h with
    contextSet := ?_
    earlier := fun t ht => ?_
    ungiven := fun hfree => hgiven.trans (h.ungiven hfree)
    queued := fun status trailing hmem => hgiven.trans (h.queued status trailing hmem)
    finish := fun t ht hother => ⟨(h.finish t ht hother).1, hgiven.trans (h.finish t ht hother).2⟩ }
  · rw [hcontext, ← h.contextSet]
    exact contextTrailing_addTrailing hstarted entry
  · rw [hcontext]
    exact (h.earlier t ht).trans (List.prefix_append _ _)

/-- A finish is accepted, with its own entries or without. -/
theorem World.Trailing.enqueueFinish (h : w.Trailing) (hbase : w.Base) (status : Status)
    (trailing : Option (List Entry)) (hunfinished : w.stream.finishQueued = false) :
    World.Trailing { w with
      commands := w.commands ++ [.finish status trailing]
      stream := { w.stream with finishQueued := true }
      log := { w.log with
        trailingSet := w.log.trailingSet ++ (trailing.getD []).map (.given, ·) } } := by
  obtain ⟨hopen, hnone⟩ := hbase.unqueued hunfinished
  have hempty := h.unended hopen
  have hgiven : setFrom .given (w.log.trailingSet ++ (trailing.getD []).map (.given, ·)) =
      trailing.getD [] := by
    rw [setFrom_append, h.ungiven hunfinished, setFrom_map_self, List.nil_append]
  have hcontext : setFrom .context (w.log.trailingSet ++ (trailing.getD []).map (.given, ·)) =
      setFrom .context w.log.trailingSet := by
    rw [setFrom_append, setFrom_map_of_ne (by decide), List.append_nil]
  refine { h with
    contextSet := h.contextSet.trans hcontext.symm
    earlier := fun t ht => hcontext ▸ h.earlier t ht
    ungiven := nofun
    queued := fun status' trailing' hmem => hgiven.trans ?_
    finish := fun t ht => absurd (hempty ▸ ht) List.not_mem_nil }
  rw [World.queue, ← List.append_assoc] at hmem
  rcases List.mem_append.mp hmem with hmem | hmem
  · exact absurd rfl (List.countP_eq_zero.mp hnone _ hmem)
  · rw [(CommandAction.finish.inj (List.mem_singleton.mp hmem)).2]

theorem AppMove.trailing {w' : World} (hmove : AppMove w w') (hbase : w.Base) (h : w.Trailing) :
    w'.Trailing := by
  cases hmove with
  | send index send => exact { h.enqueue (.send send.encoded) rfl with }
  | initialMetadata entries compression =>
    exact { h.enqueue (.initialMetadata entries compression) rfl with }
  | resumeQueued => exact { h.enqueue .resumeReceive rfl with }
  | finish status trailing hactive hunfinished =>
    exact { h.enqueueFinish hbase status trailing hunfinished with }
  | abort => exact { h with ungiven := nofun }
  | context f htrailing => exact h.mapStreaming fun st => htrailing st.context
  | contextTrailing entry hstarted => exact h.addTrailing hstarted entry
  | _ => exact { h with }

variable {hand : Hand} {c : Config} {copied : List Entry} {complete : Bool} {t : Termination}

theorem StopMove.trailing (hmove : StopMove hand w c) (hbase : w.Base) (h : w.Trailing) :
    c.world.Trailing := by
  cases hmove with
  | app hmove => exact hmove.trailing hbase h
  | discard =>
    refine { h with queued := fun status trailing hmem => h.queued status trailing ?_ }
    exact List.mem_append_left _ ((List.append_nil w.batch) ▸ hmem)
  | clear => exact h.mapStreaming fun _ => rfl
  | cancel => exact { h with ungiven := nofun }
  | _ => exact { h with }

theorem World.Trailing.finishes (h : w.Trailing) {status : Status} {trailing : Option (List Entry)}
    {rest : List CommandAction} (hbatch : w.batch = .finish status trailing :: rest)
    (hnew : w.stream.responseFinished = false)
    (hcopied : Copied (w.trailingOf trailing).2 copied complete) :
    World.Trailing { w with
      origin := .finish
      stream := { w.stream with
        responseFinished := true
        responseStatus := status
        trailingMetadata := w.stream.trailingMetadata ++ copied }
      log := { w.log with terminations := w.log.terminations ++
        [⟨.finish, (w.trailingOf trailing).1, (w.trailingOf trailing).2, w.contextTrailing,
          complete⟩] } } := by
  have hempty := h.unended hnew
  have hnone : w.stream.trailingMetadata = [] := by
    have hall := h.copied (by simp [hempty])
    simpa [hempty] using hall
  have hgiven : setFrom .given w.log.trailingSet = trailing.getD [] := by
    refine h.queued status trailing (List.mem_append_left _ ?_)
    rw [hbatch]
    exact List.mem_cons_self
  have hopen : w.stream.trailerSubmitted = false := by
    by_contra hsubmitted
    cases hnew.symm.trans (h.ended (by simpa using hsubmitted))
  refine { h with
    copied := fun hcomplete => ?_
    valid := fun entry hentry => ?_
    unended := nofun
    ordered := ?_
    earlier := fun t ht => ?_
    finish := fun t ht _ => ?_
    failure := fun t ht hfailure => ?_
    context := fun t ht hsource => ?_
    ended := fun _ => rfl
    trailers := fun trailers htrailers => ?_ }
  all_goals simp only [hempty, hnone, List.nil_append, List.mem_singleton] at *
  · simp [hcopied.whole (hcomplete _ rfl)]
  · exact hcopied.valid entry hentry
  · exact List.pairwise_singleton _ _
  · subst ht
    exact h.contextSet ▸ List.prefix_rfl
  · subst ht
    refine ⟨rfl, hgiven.trans ?_⟩
    cases trailing with
    | none => rfl
    | some => rfl
  · subst ht
    exact absurd hfailure nofun
  · subst ht
    cases trailing with
    | none => rfl
    | some => exact absurd hsource nofun
  · cases (h.trailers trailers htrailers).1.symm.trans hopen

theorem World.Trailing.fails (h : w.Trailing) (hfinished : w.stream.responseFinished)
    (hopen : w.stream.trailerSubmitted = false) (hunfailed : w.Unfailed)
    (hcopied : Copied w.contextTrailing copied complete) :
    World.Trailing { w with
      stream := { w.stream with trailingMetadata := w.stream.trailingMetadata ++ copied }
      log := { w.log with terminations := w.log.terminations ++
        [⟨.failure, .context, w.contextTrailing, w.contextTrailing, complete⟩] } } := by
  refine { h with
    copied := fun hcomplete => ?_
    valid := fun entry hentry => ?_
    unended := fun hno => by cases hno.symm.trans hfinished
    ordered := ?_
    earlier := fun t ht => ?_
    finish := fun t ht hother => ?_
    failure := fun t ht hfailure => ?_
    context := fun t ht hsource => ?_
    trailers := fun trailers htrailers => ?_ }
  · obtain ⟨hbefore, hlast⟩ := List.forall_mem_append.mp hcomplete
    have hwhole := hcopied.whole (hlast _ (List.mem_singleton_self _))
    simp [h.copied hbefore, hwhole]
  · exact (List.mem_append.mp hentry).elim (h.valid entry) (hcopied.valid entry)
  · refine List.pairwise_append.mpr ⟨h.ordered, List.pairwise_singleton _ _, fun a ha b hb => ?_⟩
    rw [List.mem_singleton.mp hb]
    exact ⟨(h.finish a ha (hunfailed a ha)).1, rfl⟩
  · rcases List.mem_append.mp ht with ht | ht
    · exact h.earlier t ht
    · rw [List.mem_singleton.mp ht]
      exact h.contextSet ▸ List.prefix_rfl
  · rcases List.mem_append.mp ht with ht | ht
    · exact h.finish t ht hother
    · exact absurd (by rw [List.mem_singleton.mp ht]) hother
  · rcases List.mem_append.mp ht with ht | ht
    · exact h.failure t ht hfailure
    · rw [List.mem_singleton.mp ht]
  · rcases List.mem_append.mp ht with ht | ht
    · exact h.context t ht hsource
    · rw [List.mem_singleton.mp ht]
  · cases (h.trailers trailers htrailers).1.symm.trans hopen

theorem Move.trailing (hmove : Move hand w c) (hbase : w.Base) (h : w.Trailing) :
    c.world.Trailing := by
  cases hmove with
  | stop hmove => exact hmove.trailing hbase h
  | finish status trailing rest copied complete hbatch hactive hnew hcopied =>
    exact h.finishes hbatch hnew hcopied
  | fail | forceAbort => exact { h with unended := nofun, ungiven := nofun, ended := fun _ => rfl }
  | failTrailers copied complete hstarted hinactive hfinished hopen hunfailed hcopied =>
    exact h.fails hfinished hopen hunfailed hcopied
  | fed | feedFailed | decoded | requestEncoding | remoteEndReceived | take =>
    exact h.mapStreaming fun _ => rfl
  | remoteEnd | handOver | complete =>
    exact { h with contextSet := Eq.trans (contextTrailing_map w fun _ => rfl) h.contextSet }
  | commandDone command rest hbatch =>
    refine { h with queued := fun status trailing hmem => h.queued status trailing ?_ }
    rw [World.queue, hbatch]
    exact List.mem_cons_of_mem _ hmem
  | swap hbatch =>
    refine { h with queued := fun status trailing hmem => h.queued status trailing ?_ }
    rw [World.queue, hbatch]
    exact (List.append_nil w.commands) ▸ hmem
  | endOfData hfinished hnew =>
    refine { h with ended := fun _ => hfinished, trailers := fun trailers htrailers => ?_ }
    exact absurd htrailers (by simp [hbase.trailersNew hnew])
  | trailers hsubmitted =>
    refine { h with trailers := fun trailers htrailers => ⟨hsubmitted, ?_⟩ }
    rw [← Option.some.inj htrailers]
    exact h.filter
  | _ => exact { h with }

theorem trailing_invariant : Invariant fun _ => World.Trailing where
  move hmove hbase h := hmove.trailing hbase h
  accept _ _ hacceptable _ h := by
    refine { h with contextSet := Eq.trans ?_ h.contextSet }
    simp [World.contextTrailing, hacceptable.unstarted, World.accept, World.noted]
  marked _ h := { h with }

theorem World.IsRequest.trailing (hw : w.IsRequest) : w.Trailing := by
  rw [hw]
  exact ⟨fun _ => rfl, nofun, fun _ => rfl, .nil, rfl, nofun, fun _ =>
    rfl, nofun, nofun, nofun, nofun,
    nofun, nofun⟩

/-! ## What the trailers hold -/

theorem World.Trailing.cases (h : w.Trailing) :
    w.log.terminations = [] ∨ (∃ t, w.log.terminations = [t]) ∨
      ∃ a b, w.log.terminations = [a, b] ∧ a.event = .finish ∧ b.event = .failure := by
  have hordered := h.ordered
  rcases hterms : w.log.terminations with _ | ⟨a, _ | ⟨b, _ | ⟨c, rest⟩⟩⟩
  · exact .inl rfl
  · exact .inr (.inl ⟨a, rfl⟩)
  · rw [hterms] at hordered
    have hpair := (List.pairwise_cons.mp hordered).1 b List.mem_cons_self
    exact .inr (.inr ⟨a, b, rfl, hpair⟩)
  · rw [hterms] at hordered
    obtain ⟨hfirst, hrest⟩ := List.pairwise_cons.mp hordered
    have hbfailure := (hfirst b List.mem_cons_self).2
    have hbfinish := ((List.pairwise_cons.mp hrest).1 c List.mem_cons_self).1
    cases hbfailure.symm.trans hbfinish

/-- What was copied is what the handler has set. -/
theorem World.Trailing.entries_of_unmixed (h : w.Trailing)
    (hcomplete : ∀ t ∈ w.log.terminations, t.complete) (hunmixed : w.log.Unmixed) :
    w.stream.trailingMetadata = w.log.handlerEntries := by
  have hearly := hunmixed.early
  rw [h.copied hcomplete, Log.handlerEntries, ← setFrom_of_first hunmixed.first, hearly]
  rcases h.cases with hnone | ⟨t, hone⟩ | ⟨a, b, hboth, ha, hb⟩
  · simp [hnone, hunmixed.inTime (by simp [hnone])]
  · have hmem : t ∈ w.log.terminations := by simp [hone]
    by_cases hfailure : t.event = .failure
    · -- the call failed before a finish was carried out
      have hgiven := hunmixed.inTime (by simp [hone, hfailure])
      simp [hone, hgiven, h.context t hmem (h.failure t hmem hfailure)]
    · obtain ⟨hfinish, hgiven⟩ := h.finish t hmem hfailure
      rw [hgiven]
      cases hsource : t.source with
      | given => simp [hone, hunmixed.alone (by simp [hone, hfinish]) t hmem hsource]
      | context => simp [hone, h.context t hmem hsource]
  · have hmem : a ∈ w.log.terminations := by simp [hboth]
    have hmem' : b ∈ w.log.terminations := by simp [hboth]
    have hgiven := (h.finish a hmem (by rw [ha]; decide)).2
    have hlast := h.context b hmem' (h.failure b hmem' hb)
    rw [hgiven]
    cases hsource : a.source with
    | given => simp [hboth, hlast]
    | context =>
      have honce := hunmixed.once ⟨b, hmem', hb⟩ a hmem ha hsource
      simp [hboth, hlast, h.context a hmem hsource, honce]

/-- In every run in which trailing metadata is copied without an error, the trailers hold the
entries that the handler has set, each once and in their order, if these come from one place and
in time.  What an event finds in the context is what was set there before it. -/
theorem trailers_hold_handlerEntries {w : World} (hw : w.IsRequest) {events : List Event}
    {trailers : Trailers} (htrailers : (Run.final step w events).log.trailers = some trailers)
    (hcomplete : ∀ t ∈ (Run.final step w events).log.terminations, t.complete) :
    ((Run.final step w events).log.Unmixed →
      trailers.metadata = (Run.final step w events).log.handlerEntries) ∧
    ∀ t ∈ (Run.final step w events).log.terminations,
      t.context <+: setFrom .context (Run.final step w events).log.trailingSet := by
  have h := trailing_invariant.run hw events hw.trailing
  rw [(h.trailers trailers htrailers).2]
  exact ⟨h.entries_of_unmixed hcomplete, h.earlier⟩

/-- A request with a deadline whose handler sets an entry and finishes at once. -/
def trailingCall : World :=
  { deadlineCall with
    env :=
      { callbacks :=
          [{ actions :=
              [.contextTrailingMetadata ⟨ascii "x-a", ascii "1"⟩, .streamFinish ⟨.ok, []⟩] }] } }

theorem trailingCall_isRequest : trailingCall.IsRequest := rfl

/-- The deadline is still ahead when the trailers of `trailingCall` are read. -/
theorem trailers_hold_handlerEntries_trailingCall :
    let done := Run.final step trailingCall [.start 0 {}, .commands, .read 16]
    trailingCall.IsRequest ∧ done.log.Unmixed ∧
      done.log.trailers.map (·.metadata) = some done.log.handlerEntries ∧
      done.log.handlerEntries = [⟨ascii "x-a", ascii "1"⟩] := by
  intro done
  have htrailers : done.log.trailers = some
      { status := ⟨.ok, []⟩
        metadata := [⟨ascii "x-a", ascii "1"⟩]
        origin := .finish
        sentBefore := [] } := by decide +kernel
  have hset : done.log.trailingSet = [(.context, ⟨ascii "x-a", ascii "1"⟩)] := by decide +kernel
  have hended : done.log.terminations = [⟨.finish, .context, [⟨ascii "x-a", ascii "1"⟩],
      [⟨ascii "x-a", ascii "1"⟩], true⟩] := by decide +kernel
  have hunmixed : done.log.Unmixed :=
    { once := by simp [hended]
      alone := by simp [hended]
      inTime := by simp [hended]
      early := by rw [hset, hended]; rfl
      first := by rw [hset]; exact List.pairwise_singleton _ _ }
  refine ⟨trailingCall_isRequest, hunmixed, ?_, by rw [Log.handlerEntries, hset]; rfl⟩
  rw [htrailers, ← (trailers_hold_handlerEntries trailingCall_isRequest htrailers
    (by rw [hended]; decide)).1 hunmixed]
  rfl

/-- The deadline expires between the finish and the end of the data. -/
def repeatedCall : World :=
  Run.final step trailingCall [.start 0 {}, .commands, .expire 100, .read 16]

theorem deadline_repeats_entries : trailingCall.IsRequest ∧
    (∀ t ∈ repeatedCall.log.terminations, t.complete) ∧
    ∃ trailers, repeatedCall.log.trailers = some trailers ∧
      trailers.metadata = [⟨ascii "x-a", ascii "1"⟩, ⟨ascii "x-a", ascii "1"⟩] ∧
      repeatedCall.log.handlerEntries = [⟨ascii "x-a", ascii "1"⟩] := by
  refine ⟨trailingCall_isRequest, by decide +kernel,
    { status := .init .deadlineExceeded "deadline exceeded"
      metadata := [⟨ascii "x-a", ascii "1"⟩, ⟨ascii "x-a", ascii "1"⟩]
      origin := .failure
      sentBefore := [] }, by decide +kernel, rfl, by decide +kernel⟩

end GrpcLite.Server
