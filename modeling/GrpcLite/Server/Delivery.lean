import GrpcLite.Server.Steps

/-!
# Delivery of the response messages

A frame that was accepted is in a send command, then in the outbound queue, then completed.  Every
move passes frames on in this order, so the bytes before the trailers are whole frames in every run
whose deadlines do not expire inside a frame.
-/

namespace GrpcLite.Server

open Prog

def sendsOf (commands : List CommandAction) : List Bytes :=
  commands.filterMap fun
    | .send bytes => some bytes
    | _ => none

@[simp] theorem sendsOf_nil : sendsOf [] = [] := rfl

@[simp] theorem sendsOf_append (a b : List CommandAction) :
    sendsOf (a ++ b) = sendsOf a ++ sendsOf b := List.filterMap_append ..

@[simp] theorem sendsOf_send (bytes : Bytes) (rest : List CommandAction) :
    sendsOf (.send bytes :: rest) = bytes :: sendsOf rest := rfl

theorem sendsOf_cons {command : CommandAction} (h : command.isSend = false)
    (rest : List CommandAction) : sendsOf (command :: rest) = sendsOf rest := by
  cases command with
  | send => exact absurd h nofun
  | _ => rfl

theorem sendsOf_concat {command : CommandAction} (h : command.isSend = false)
    (batch commands : List CommandAction) :
    sendsOf (batch ++ (commands ++ [command])) = sendsOf (batch ++ commands) := by
  rw [← List.append_assoc, sendsOf_append _ [command], sendsOf_cons h, sendsOf_nil,
    List.append_nil]

theorem sendsOf_eq_nil {commands : List CommandAction}
    (h : ∀ command ∈ commands, command.isSend = false) : sendsOf commands = [] := by
  induction commands with
  | nil => rfl
  | cons command rest ih =>
    rw [sendsOf_cons (h command List.mem_cons_self)]
    exact ih fun other hother => h other (List.mem_cons_of_mem _ hother)

def World.taken (w : World) : List Bytes := w.log.completed ++ w.outbound.map (·.bytes)

/-- The bytes `sent` are the frames of a prefix of the accepted sends and, if they end with a
finish, of all sends accepted before it. -/
def Log.WholeFrames (log : Log) (sent : Bytes) (origin : StatusOrigin) : Prop :=
  ∃ frames, frames <+: log.accepted ∧ sent = frames.flatten ∧
    (origin = .finish → log.finishAccepted = some frames.length)

/-- Where the frames of a call are, and how the bytes handed over line up with them. -/
structure World.Delivers (hand : Hand) (w : World) : Prop where
  fresh : ∀ item ∈ w.outbound.tail, item.offset = 0
  ordered : w.taken <+: w.log.accepted
  conserved : w.stream.streamingActive → hand.failing = false →
    w.log.accepted = w.taken ++ sendsOf (hand.held w.batch ++ w.commands)
  counted : ∀ count, w.log.finishAccepted = some count →
    w.stream.finishQueued ∧ w.log.accepted.length = count
  finishing : ∀ command ∈ w.queue, command.isFinish → w.log.finishAccepted.isSome
  finishLast : w.queue.Pairwise fun earlier later => earlier.isFinish → later.isSend = false
  quiet : w.stream.responseFinished → w.stream.streamingActive → sendsOf w.queue = []
  fromFinish : w.origin = .finish → w.log.finishAccepted.isSome
  drained : w.stream.trailerSubmitted → w.stream.responseFinished ∧ w.outbound = []
  unstarted : w.stream.streaming = none → w.log.accepted = [] ∧ w.log.completed = []
  aligned : w.log.cut = false → hand.aborting = false → w.dead = false →
    w.log.sent = w.log.completed.flatten ++ w.partlySent
  settled : hand.ending = false → hand.aborting = false → w.dead = false →
    w.stream.trailerSubmitted = false → w.origin = .finish → w.stream.streamingActive
  ready : w.log.cut = false → w.stream.trailerSubmitted → w.log.WholeFrames w.log.sent w.origin
  trailers : w.log.cut = false → ∀ trailers, w.log.trailers = some trailers →
    w.log.WholeFrames trailers.sentBefore trailers.origin

variable {w w' : World} {hand : Hand} {c : Config} {command : CommandAction} {bytes : Bytes}
  {item : OutboundMessage} {rest : List OutboundMessage} {length : ℕ} {log : Log}

/-! ## Operations of the application -/

theorem Log.WholeFrames.accept {sent : Bytes} {origin : StatusOrigin}
    (h : log.WholeFrames sent origin) (frame : Bytes) (sends : List AcceptedSend) :
    Log.WholeFrames { log with accepted := log.accepted ++ [frame], sends := sends } sent
      origin := by
  obtain ⟨frames, hprefix, hsent, hall⟩ := h
  exact ⟨frames, hprefix.trans (List.prefix_append _ _), hsent, hall⟩

section Queue

variable (h : w.Delivers hand)

include h

theorem World.Delivers.unfinished (hfree : w.stream.finishQueued = false) :
    w.log.finishAccepted = none := by
  cases hcount : w.log.finishAccepted with
  | none => rfl
  | some count => cases hfree.symm.trans (h.counted count hcount).1

theorem World.Delivers.no_finish (hfree : w.stream.finishQueued = false) :
    ∀ command ∈ w.queue, command.isFinish = false := by
  intro command hmem
  by_contra hfinish
  have hsome := h.finishing command hmem (by simpa using hfinish)
  rw [h.unfinished hfree] at hsome
  cases hsome

theorem World.Delivers.finishing_concat (hcommand : command.isFinish = false) :
    ∀ other ∈ w.batch ++ (w.commands ++ [command]), other.isFinish →
      w.log.finishAccepted.isSome := by
  intro other hmem hfinish
  rw [← List.append_assoc, List.mem_append, List.mem_singleton] at hmem
  rcases hmem with hmem | rfl
  · exact h.finishing other hmem hfinish
  · cases hcommand.symm.trans hfinish

theorem World.Delivers.finishLast_concat
    (hsend : command.isSend → w.stream.finishQueued = false) :
    (w.batch ++ (w.commands ++ [command])).Pairwise
      fun earlier later => earlier.isFinish → later.isSend = false := by
  rw [← List.append_assoc]
  refine List.pairwise_append.mpr ⟨h.finishLast, List.pairwise_singleton _ _, ?_⟩
  intro earlier hmem later hlater hfinish
  rw [List.mem_singleton.mp hlater]
  by_contra hother
  have hfree := hsend (by simpa using hother)
  cases (h.no_finish hfree earlier hmem).symm.trans hfinish

/-- A command that is neither a send nor a finish is queued. -/
theorem World.Delivers.enqueue (command : CommandAction) (hsend : command.isSend = false)
    (hfinish : command.isFinish = false) :
    World.Delivers hand { w with commands := w.commands ++ [command] } :=
  { h with
    conserved := fun hactive hcalm =>
      (h.conserved hactive hcalm).trans (congrArg _ (sendsOf_concat hsend _ _).symm)
    finishing := h.finishing_concat hfinish
    finishLast := h.finishLast_concat fun hyes => by cases hsend.symm.trans hyes
    quiet := fun hfinished hactive => (sendsOf_concat hsend _ _).trans (h.quiet hfinished hactive) }

theorem World.Delivers.mapStreaming {f : StreamingState → StreamingState}
    (hf : ∀ st, (f st).outbound = st.outbound) :
    World.Delivers hand
      { w with stream := { w.stream with streaming := w.stream.streaming.map f } } := by
  have hout := outbound_map w hf
  have hpartly : World.partlySent
      { w with stream := { w.stream with streaming := w.stream.streaming.map f } } =
      w.partlySent := by
    unfold World.partlySent
    rw [hout]
  have htaken : World.taken
      { w with stream := { w.stream with streaming := w.stream.streaming.map f } } = w.taken := by
    unfold World.taken
    rw [hout]
  refine { h with
    fresh := fun item hmem => h.fresh item (hout ▸ hmem)
    ordered := htaken ▸ h.ordered
    conserved := fun hactive hcalm => ?_
    drained := fun hsubmitted => (h.drained hsubmitted).imp_right hout.trans
    unstarted := fun hnone => h.unstarted (by simpa using hnone)
    aligned := fun huncut hcalm hlive => ?_ }
  · rw [htaken]
    exact h.conserved hactive hcalm
  · rw [hpartly]
    exact h.aligned huncut hcalm hlive

end Queue

theorem AppMove.delivers (hmove : AppMove w w') (hbase : w.Base) (h : w.Delivers hand) :
    w'.Delivers hand := by
  cases hmove with
  | send index send hsend hallowed =>
    have hnone := h.unfinished hallowed.unfinished
    refine { h with
      ordered := h.ordered.trans (List.prefix_append _ _)
      conserved := fun hactive hcalm => ?_
      counted := fun count hcount => by cases hnone.symm.trans hcount
      finishing := h.finishing_concat rfl
      finishLast := h.finishLast_concat fun _ => hallowed.unfinished
      quiet := fun hfinished => ?_
      unstarted := fun hunstarted => ?_
      ready := fun huncut hsubmitted => (h.ready huncut hsubmitted).accept _ _
      trailers := fun huncut t ht => (h.trailers huncut t ht).accept _ _ }
    · have hconserved := h.conserved hactive hcalm
      show w.log.accepted ++ [send.encoded] =
        w.taken ++ sendsOf (hand.held w.batch ++ (w.commands ++ [.send send.encoded]))
      rw [← List.append_assoc, sendsOf_append _ [_], ← List.append_assoc, ← hconserved]
      rfl
    · cases (hbase.unqueued hallowed.unfinished).1.symm.trans hfinished
    · exact absurd hunstarted (started_ne_none (hbase.started hallowed.active))
  | initialMetadata entries compression =>
    exact { h.enqueue (.initialMetadata entries compression) rfl rfl with }
  | resumeQueued => exact { h.enqueue .resumeReceive rfl rfl with }
  | finish status trailing hactive hunfinished =>
    have hnone := h.unfinished hunfinished
    -- nothing so far ends with a finish
    have hfirst : ∀ {sent : Bytes} {origin : StatusOrigin}, w.log.WholeFrames sent origin →
        ∃ frames, frames <+: w.log.accepted ∧ sent = frames.flatten ∧
          (origin = .finish → some w.log.accepted.length = some frames.length) := by
      rintro _ _ ⟨frames, hprefix, hsent, hall⟩
      exact ⟨frames, hprefix, hsent, fun horigin => by cases hnone.symm.trans (hall horigin)⟩
    exact { h with
      conserved := fun hactive hcalm =>
        (h.conserved hactive hcalm).trans (congrArg _ (sendsOf_concat rfl _ _).symm)
      counted := fun count hcount => ⟨rfl, Option.some.inj hcount⟩
      finishing := fun _ _ _ => rfl
      finishLast := h.finishLast_concat nofun
      quiet := fun hfinished _ => by cases (hbase.unqueued hunfinished).1.symm.trans hfinished
      fromFinish := fun _ => rfl
      ready := fun huncut hsubmitted => hfirst (h.ready huncut hsubmitted)
      trailers := fun huncut t ht => hfirst (h.trailers huncut t ht) }
  | abort => exact { h with counted := fun count hcount => ⟨rfl, (h.counted count hcount).2⟩ }
  | context => exact h.mapStreaming fun _ => rfl
  | contextTrailing entry => exact { h.mapStreaming (f := (·.addTrailing entry)) fun _ => rfl with }
  | _ => exact { h with }

/-! ## Moves of the reactor -/

theorem World.Delivers.clear (h : w.Delivers hand) (hinactive : w.stream.streamingActive = false)
    (huncut : w.dead = true ∨ hand.aborting = true ∨ w.Uncut) :
    World.Delivers hand { w with stream := { w.stream with
      streaming := w.stream.streaming.map fun st => { st with outbound := [] } } } := by
  have hout := outbound_clear w
  refine { h with
    fresh := fun item hmem => ?_
    ordered := ?_
    conserved := fun hactive => by cases hinactive.symm.trans hactive
    drained := fun hsubmitted => ⟨(h.drained hsubmitted).1, hout⟩
    unstarted := fun hnone => h.unstarted (by simpa using hnone)
    aligned := fun hwhole hcalm hlive => ?_ }
  · rw [hout] at hmem
    exact absurd hmem List.not_mem_nil
  · unfold World.taken
    rw [hout, List.map_nil, List.append_nil]
    exact (List.prefix_append _ _).trans h.ordered
  · have hnone : w.partlySent = [] := by
      rcases huncut with hdead | haborting | hcut | hnone
      · cases hdead.symm.trans hlive
      · cases haborting.symm.trans hcalm
      · cases hcut.symm.trans hwhole
      · exact hnone
    have hsent := h.aligned hwhole hcalm hlive
    rw [hnone] at hsent
    rwa [World.partlySent, hout]

theorem StopMove.delivers (hmove : StopMove hand w c) (hbase : w.Base) (h : w.Delivers hand) :
    c.world.Delivers c.hand := by
  cases hmove with
  | app hmove => exact hmove.delivers hbase h
  | discard hinactive =>
    have hsub : (w.batch ++ []).Sublist w.queue := List.Sublist.append_left (List.nil_sublist _) _
    exact { h with
      conserved := fun hactive => by cases hinactive.symm.trans hactive
      finishing := fun command hmem => h.finishing command (hsub.mem hmem)
      finishLast := h.finishLast.sublist hsub
      quiet := fun _ hactive => by cases hinactive.symm.trans hactive }
  | clear hinactive hopen huncut => exact { h.clear hinactive huncut with }
  | cancel reason hstarted hnew hopen hcalm hending =>
    exact { h with
      conserved := nofun
      counted := fun count hcount => ⟨rfl, (h.counted count hcount).2⟩
      quiet := fun _ => nofun
      settled := fun hsettled _ hlive => hending.elim
        (fun hdead => by cases hdead.symm.trans hlive)
        fun hset => by cases hset.symm.trans hsettled }
  | close =>
    exact { h with
      aligned := fun _ _ => nofun
      settled := fun _ _ => nofun }
  | _ => exact { h with }

/-- The first send of the batch enters the outbound queue. -/
theorem World.Delivers.take (h : w.Delivers hand) (hbase : w.Base) {commands : List CommandAction}
    (hbatch : w.batch = .send bytes :: commands) (hactive : w.stream.streamingActive)
    (hnew : hand.taken = false) (hcalm : hand.failing = false) :
    World.Delivers { hand with taken := true } { w with stream := { w.stream with
      streaming := w.stream.streaming.map fun st =>
        { st with outbound := st.outbound ++ [⟨bytes, 0⟩] } } } := by
  have hout := outbound_update (map_outbound (hbase.started hactive))
    (fun st => { st with outbound := st.outbound ++ [⟨bytes, 0⟩] }) (· ++ [⟨bytes, 0⟩]) fun _ => rfl
  have hconserved := h.conserved hactive hcalm
  rw [Hand.held, hnew, hbatch] at hconserved
  have haccepted : w.log.accepted = w.taken ++ [bytes] ++ sendsOf (commands ++ w.commands) := by
    rw [List.append_assoc]
    exact hconserved
  have htaken : w.log.completed ++ (w.outbound ++ [OutboundMessage.mk bytes 0]).map (·.bytes) =
      w.taken ++ [bytes] := by
    rw [List.map_append, ← List.append_assoc]
    rfl
  have hunfinished : ¬w.stream.responseFinished := fun hfinished => by
    have hquiet := h.quiet hfinished hactive
    rw [World.queue, hbatch, List.cons_append, sendsOf_send] at hquiet
    exact absurd hquiet (List.cons_ne_nil _ _)
  refine { h with
    fresh := fun item hmem => ?_
    ordered := ?_
    conserved := fun _ _ => ?_
    drained := fun hsubmitted => absurd (h.drained hsubmitted).1 hunfinished
    unstarted := fun hnone => h.unstarted (by simpa using hnone)
    aligned := fun hwhole haborting hlive => ?_ }
  · rw [hout] at hmem
    rcases hold : w.outbound with _ | ⟨first, others⟩
    · rw [hold] at hmem
      exact absurd hmem List.not_mem_nil
    · rw [hold, List.cons_append, List.tail_cons, List.mem_append, List.mem_singleton] at hmem
      rcases hmem with hmem | rfl
      · exact h.fresh item (by rwa [hold])
      · rfl
  · rw [World.taken, hout, htaken, haccepted]
    exact List.prefix_append _ _
  · rw [World.taken, hout, htaken, Hand.held, hbatch]
    exact haccepted
  · rw [h.aligned hwhole haborting hlive, World.partlySent, World.partlySent, hout]
    rcases w.outbound with _ | ⟨first, others⟩
    · rfl
    · rfl

section HandingOver

variable (h : w.Delivers hand) (hout : w.stream.streaming.map (·.outbound) = some (item :: rest))

include h hout

theorem World.Delivers.undrained : w.stream.trailerSubmitted = false := by
  by_contra hsubmitted
  have hempty := (h.drained (by simpa using hsubmitted)).2
  rw [outbound_of_map hout] at hempty
  exact absurd hempty nofun

theorem World.Delivers.handOver (releasing : ℕ) :
    World.Delivers { hand with releasing := releasing } { w with
      stream := { w.stream with streaming := w.stream.streaming.map fun st =>
        { st with outbound := { item with offset := item.offset + length } :: rest } }
      log := { w.log with sent := w.log.sent ++ item.remaining.take length } } := by
  have hold := outbound_of_map hout
  have hnew : World.outbound { w with
      stream := { w.stream with streaming := w.stream.streaming.map fun st =>
        { st with outbound := { item with offset := item.offset + length } :: rest } }
      log := { w.log with sent := w.log.sent ++ item.remaining.take length } } =
      { item with offset := item.offset + length } :: rest :=
    outbound_update hout _ (fun _ => { item with offset := item.offset + length } :: rest) fun _ =>
      rfl
  have hopen := h.undrained hout
  have htaken : w.taken = w.log.completed ++ (item :: rest).map (·.bytes) := by
    rw [World.taken, hold]
  refine { h with
    fresh := fun other hmem => ?_
    ordered := ?_
    conserved := fun hactive hcalm => ?_
    drained := fun hsubmitted => by cases hopen.symm.trans hsubmitted
    unstarted := fun hnone => h.unstarted (by simpa using hnone)
    aligned := fun hwhole haborting hlive => ?_
    ready := fun _ hsubmitted => by cases hopen.symm.trans hsubmitted }
  · rw [hnew] at hmem
    exact h.fresh other (by rwa [hold])
  · rw [World.taken, hnew]
    exact htaken ▸ h.ordered
  · rw [World.taken, hnew]
    exact htaken ▸ h.conserved hactive hcalm
  · have hsent := h.aligned hwhole haborting hlive
    rw [World.partlySent, hold] at hsent
    rw [World.partlySent, hnew]
    show w.log.sent ++ (item.bytes.drop item.offset).take length =
      w.log.completed.flatten ++ item.bytes.take (item.offset + length)
    rw [hsent, List.take_add, ← List.append_assoc]
    rfl

theorem World.Delivers.complete (hwhole : item.offset = item.bytes.length) :
    World.Delivers hand { w with
      stream := { w.stream with
        streaming := w.stream.streaming.map fun st => { st with outbound := st.outbound.tail } }
      log := { w.log with completed := w.log.completed ++ [item.bytes] } } := by
  have hold := outbound_of_map hout
  have hnew : World.outbound { w with
      stream := { w.stream with
        streaming := w.stream.streaming.map fun st => { st with outbound := st.outbound.tail } }
      log := { w.log with completed := w.log.completed ++ [item.bytes] } } = rest :=
    outbound_update hout _ List.tail fun _ => rfl
  have hfresh : ∀ other ∈ rest, other.offset = 0 := fun other hmem => h.fresh other (by rwa [hold])
  have htaken : w.taken = w.log.completed ++ [item.bytes] ++ rest.map (·.bytes) := by
    rw [World.taken, hold, List.map_cons, List.append_assoc, List.singleton_append]
  refine { h with
    fresh := fun other hmem => ?_
    ordered := ?_
    conserved := fun hactive hcalm => ?_
    drained := fun hsubmitted => by cases (h.undrained hout).symm.trans hsubmitted
    unstarted := fun hnone => ?_
    aligned := fun huncut haborting hlive => ?_ }
  · rw [hnew] at hmem
    exact hfresh other (List.mem_of_mem_tail hmem)
  · rw [World.taken, hnew]
    exact htaken ▸ h.ordered
  · rw [World.taken, hnew]
    exact htaken ▸ h.conserved hactive hcalm
  · have hnone : w.stream.streaming = none := by simpa using hnone
    rw [hnone] at hout
    exact absurd hout nofun
  · have hsent := h.aligned huncut haborting hlive
    rw [World.partlySent, hold] at hsent
    rw [World.partlySent, hnew]
    show w.log.sent = (w.log.completed ++ [item.bytes]).flatten ++ _
    have hnext : (rest.head?.map fun next => next.bytes.take next.offset).getD [] = [] := by
      cases rest with
      | nil => rfl
      | cons next others => simp [hfresh next List.mem_cons_self]
    rw [hnext, hsent]
    simp [hwhole]

end HandingOver

/-- The data of a call ends with its frames: those of a finish are all that were accepted. -/
theorem World.Delivers.endOfData (h : w.Delivers {}) (hfinished : w.stream.responseFinished)
    (hnew : w.stream.trailerSubmitted = false) (hlive : w.dead = false) (hdrained : w.outbound = [])
    (huncut : w.log.cut = false) : w.log.WholeFrames w.log.sent w.origin := by
  have htaken : w.taken = w.log.completed := by
    rw [World.taken, hdrained, List.map_nil, List.append_nil]
  refine ⟨w.log.completed, htaken ▸ h.ordered, ?_, fun horigin => ?_⟩
  · have hsent := h.aligned huncut rfl hlive
    rwa [World.partlySent, hdrained, List.head?_nil, Option.map_none, Option.getD_none,
      List.append_nil] at hsent
  · have hactive := h.settled rfl rfl hlive hnew horigin
    have hall := h.conserved hactive rfl
    rw [show sendsOf (Hand.held {} w.batch ++ w.commands) = [] from h.quiet hfinished hactive,
      List.append_nil, htaken] at hall
    obtain ⟨count, hcount⟩ := Option.isSome_iff_exists.mp (h.fromFinish horigin)
    rw [hcount, ← hall, (h.counted count hcount).2]

/-- A finish is carried out on an active call: no send is queued behind it. -/
theorem World.Delivers.quiet_of_finish (h : w.Delivers hand) {status : Status}
    {trailing : Option (List Entry)} {commands : List CommandAction}
    (hbatch : w.batch = .finish status trailing :: commands) :
    w.log.finishAccepted.isSome ∧ sendsOf w.queue = [] := by
  have hqueue : w.queue = .finish status trailing :: (commands ++ w.commands) := by
    rw [World.queue, hbatch, List.cons_append]
  have hlast := h.finishLast
  rw [hqueue] at hlast
  refine ⟨h.finishing (.finish status trailing) (hqueue ▸ List.mem_cons_self) rfl, ?_⟩
  rw [hqueue, sendsOf_cons rfl]
  exact sendsOf_eq_nil fun command hmem => (List.pairwise_cons.mp hlast).1 command hmem rfl

theorem World.Delivers.commandDone (h : w.Delivers hand) {commands : List CommandAction}
    (hbatch : w.batch = command :: commands) (htaken : command.isSend → hand.taken) :
    World.Delivers { hand with batch := commands, taken := false } (w.popped commands) := by
  have hqueue : w.queue = command :: (commands ++ w.commands) := by
    rw [World.queue, hbatch, List.cons_append]
  have hlast := h.finishLast
  rw [hqueue] at hlast
  refine { h with
    conserved := fun hactive hcalm => ?_
    finishing := fun other hmem => h.finishing other (hqueue ▸ List.mem_cons_of_mem _ hmem)
    finishLast := (List.pairwise_cons.mp hlast).2
    quiet := fun hfinished hactive => ?_ }
  · have hconserved := h.conserved hactive hcalm
    show w.log.accepted = w.taken ++ sendsOf (commands ++ w.commands)
    rw [hconserved, Hand.held, hbatch]
    cases hsend : command.isSend with
    | true => rw [if_pos (htaken hsend), List.tail_cons]
    | false =>
      split
      · rfl
      · rw [List.cons_append, sendsOf_cons hsend]
  · have hquiet := h.quiet hfinished hactive
    rw [hqueue] at hquiet
    cases hsend : command.isSend with
    | true =>
      cases command with
      | send bytes => exact absurd hquiet (List.cons_ne_nil _ _)
      | _ => exact absurd hsend Bool.false_ne_true
    | false => rwa [sendsOf_cons hsend] at hquiet

theorem failure_ne_finish : StatusOrigin.failure ≠ .finish := by decide

theorem Move.delivers (hmove : Move hand w c) (hbase : w.Base) (h : w.Delivers hand) :
    c.world.Delivers c.hand := by
  cases hmove with
  | stop hmove => exact hmove.delivers hbase h
  | failStatus =>
    refine { h with
      fromFinish := fun horigin => absurd horigin failure_ne_finish
      settled := fun _ _ _ _ horigin => absurd horigin failure_ne_finish
      ready := fun huncut hsubmitted => ?_ }
    obtain ⟨frames, hprefix, hsent, _⟩ := h.ready huncut hsubmitted
    exact ⟨frames, hprefix, hsent, fun horigin => absurd horigin failure_ne_finish⟩
  | finish status trailing commands copied complete hbatch hactive hnew =>
    obtain ⟨haccepted, hquiet⟩ := h.quiet_of_finish hbatch
    have hopen : ¬w.stream.trailerSubmitted := fun hsubmitted =>
      absurd (hnew.symm.trans (h.drained hsubmitted).1) Bool.false_ne_true
    exact { h with
      quiet := fun _ _ => hquiet
      fromFinish := fun _ => haccepted
      drained := fun hsubmitted => absurd hsubmitted hopen
      settled := fun _ _ _ _ _ => hactive
      ready := fun _ hsubmitted => absurd hsubmitted hopen }
  | fail hstarted hending =>
    exact { h with
      conserved := fun hactive => absurd hactive Bool.false_ne_true
      counted := fun count hcount => ⟨rfl, (h.counted count hcount).2⟩
      quiet := fun _ hactive => absurd hactive Bool.false_ne_true
      drained := fun hsubmitted => ⟨rfl, (h.drained hsubmitted).2⟩
      settled := fun hset => absurd (hset.symm.trans hending) Bool.false_ne_true }
  | reset | unregister =>
    exact { h with
      aligned := fun _ _ hlive => absurd hlive (by simp [World.dead])
      settled := fun _ _ hlive => absurd hlive (by simp [World.dead]) }
  | unsettled => exact { h with settled := fun hset => absurd hset.symm Bool.false_ne_true }
  | settled ending hsettled =>
    refine { h with settled := fun _ _ hlive hopen horigin => ?_ }
    rcases hsettled with hdead | hsubmitted | hfailure
    · exact absurd (hlive.symm.trans hdead) Bool.false_ne_true
    · exact absurd (hopen.symm.trans hsubmitted) Bool.false_ne_true
    · exact absurd (hfailure.symm.trans horigin) failure_ne_finish
  | forceAbort =>
    exact { h with
      conserved := fun hactive => absurd hactive Bool.false_ne_true
      counted := fun count hcount => ⟨rfl, (h.counted count hcount).2⟩
      quiet := fun _ hactive => absurd hactive Bool.false_ne_true
      drained := fun hsubmitted => ⟨rfl, (h.drained hsubmitted).2⟩
      aligned := fun _ haborting => absurd haborting.symm Bool.false_ne_true
      settled := fun _ haborting => absurd haborting.symm Bool.false_ne_true }
  | aborted aborting hdead =>
    exact { h with
      aligned := fun _ _ hlive => absurd (hlive.symm.trans hdead) Bool.false_ne_true
      settled := fun _ _ hlive => absurd (hlive.symm.trans hdead) Bool.false_ne_true }
  | failed hinactive =>
    exact { h with
      conserved := fun hactive => absurd (hinactive.symm.trans hactive) Bool.false_ne_true }
  | allocationFailed =>
    exact { h with conserved := fun _ hcalm => absurd hcalm.symm Bool.false_ne_true }
  | fed decoder next | decoded oom message decoder next =>
    exact { h.mapStreaming (f := fun st => { st with decoder := next }) fun _ => rfl with }
  | feedFailed | requestEncoding | remoteEndReceived => exact h.mapStreaming fun _ => rfl
  | remoteEnd =>
    exact { h.mapStreaming (f := fun st => { st with remoteEndCalled := true }) fun _ => rfl with }
  | take bytes commands hbatch hactive hnew hcalm => exact h.take hbase hbatch hactive hnew hcalm
  | dropSend bytes commands hbatch hnew hdropped =>
    refine { h with conserved := fun hactive hcalm => ?_ }
    rcases hdropped with hfailing | hinactive
    · exact absurd (hcalm.symm.trans hfailing) Bool.false_ne_true
    · exact absurd (hinactive.symm.trans hactive) Bool.false_ne_true
  | commandDone command commands hbatch htaken => exact h.commandDone hbatch htaken
  | swap hbatch =>
    have hqueue : World.queue { w with commands := [], batch := w.commands } = w.queue := by
      simp [World.queue, hbatch]
    have hheld : hand.held w.batch = [] := by rw [Hand.held, hbatch]; split <;> rfl
    refine { h with
      conserved := fun hactive hcalm => ?_
      finishing := fun command hmem => h.finishing command (hqueue ▸ hmem)
      finishLast := hqueue.symm ▸ h.finishLast
      quiet := fun hfinished hactive =>
        (congrArg sendsOf hqueue).trans (h.quiet hfinished hactive) }
    have hconserved := h.conserved hactive hcalm
    rw [hheld] at hconserved
    show w.log.accepted = w.taken ++ sendsOf (w.commands ++ [])
    rwa [List.append_nil]
  | handOver item rest length hreadable hout => exact h.handOver hout _
  | complete item rest hout hwhole => exact h.complete hout hwhole
  | endOfData hfinished hnew hhand hlive hdrained =>
    subst hhand
    exact { h with
      drained := fun _ => ⟨hfinished, hdrained⟩
      settled := fun _ _ _ hopen => absurd hopen.symm Bool.false_ne_true
      ready := fun huncut _ => h.endOfData hfinished hnew hlive hdrained huncut }
  | trailers hsubmitted =>
    refine { h with trailers := fun huncut trailers htrailers => ?_ }
    rw [← Option.some.inj htrailers]
    exact h.ready huncut hsubmitted
  | retire hgone =>
    have hdead := World.dead_of_unregistered hgone
    exact { h with
      conserved := fun hactive => absurd hactive Bool.false_ne_true
      quiet := fun _ hactive => absurd hactive Bool.false_ne_true
      settled := fun _ _ hlive => absurd (hlive.symm.trans hdead) Bool.false_ne_true }
  | _ => exact { h with }

theorem delivers_invariant : Invariant fun hand w => w.Delivers hand where
  move hmove hbase h := hmove.delivers hbase h
  accept := by
    intro w handler requestCompression hready hbase h
    obtain ⟨haccepted, hcompleted⟩ := h.unstarted hready.unstarted
    have hqueue := hbase.empty hready.unstarted
    have hold : w.outbound = [] := by rw [World.outbound, hready.unstarted]; rfl
    have hpartly : w.partlySent = [] := by rw [World.partlySent, hold]; rfl
    refine { h with
      fresh := fun _ hmem => absurd hmem List.not_mem_nil
      ordered := ?_
      conserved := fun _ _ => ?_
      quiet := fun hfinished =>
        absurd ((hbase.unstarted hready.unstarted).2.2.symm.trans hfinished) Bool.false_ne_true
      drained := fun hsubmitted => ⟨(h.drained hsubmitted).1, rfl⟩
      unstarted := fun hnone => absurd hnone (Option.some_ne_none _)
      aligned := fun huncut haborting hlive => ?_
      settled := fun _ _ _ _ _ => rfl }
    · show w.log.completed ++ [] <+: w.log.accepted
      rw [hcompleted]
      exact List.nil_prefix
    · show w.log.accepted = w.log.completed ++ [] ++ sendsOf w.queue
      rw [haccepted, hcompleted, hqueue]
      rfl
    · have hsent := h.aligned huncut haborting hlive
      rw [hpartly] at hsent
      exact hsent
  marked cuts h := by
    have huncut : ∀ {w : World}, (w.marked cuts).log.cut = false → w.log.cut = false :=
      fun hcut => (Bool.or_eq_false_iff.mp hcut).1
    exact { h with
      aligned := fun hcut => h.aligned (huncut hcut)
      ready := fun hcut => h.ready (huncut hcut)
      trailers := fun hcut => h.trailers (huncut hcut) }

theorem World.IsRequest.delivers (hw : w.IsRequest) : w.Delivers {} := by
  rw [hw]
  exact
    { fresh := nofun
      ordered := List.nil_prefix
      conserved := nofun
      counted := nofun
      finishing := nofun
      finishLast := .nil
      quiet := nofun
      fromFinish := nofun
      drained := nofun
      unstarted := fun _ => ⟨rfl, rfl⟩
      aligned := fun _ _ _ => rfl
      settled := fun _ _ _ _ => nofun
      ready := fun _ => nofun
      trailers := fun _ _ => nofun }

/-! ## Runs -/

/-- The history of a run that cuts no frame says so. -/
theorem uncut_of_meets (hrests : w.Rests) (huncut : w.log.cut = false) {events : List Event}
    (hevents : Run.Meets step (fun w event => w.cutsFrame event = false) w events) :
    (Run.final step w events).log.cut = false := by
  refine (Run.invariant (I := fun w : World => w.Rests ∧ w.log.cut = false)
    (fun w event h hcut => ?_) ⟨hrests, huncut⟩ hevents).2
  obtain ⟨hrests', hstarts⟩ := step_reaches event h.1
  refine ⟨hrests', hstarts.cut.trans ?_⟩
  rw [hcut, World.marked, h.2]
  rfl

/-- In every run in which no deadline expires inside a frame, the bytes before the trailers are
whole frames, a prefix of the accepted ones; the trailers of a finish follow all frames that were
accepted before it. -/
theorem trailers_follow_whole_frames {w : World} (hw : w.IsRequest) {events : List Event}
    (huncut : Run.Meets step (fun w event => w.cutsFrame event = false) w events)
    {trailers : Trailers} (htrailers : (Run.final step w events).log.trailers = some trailers) :
    ∃ frames, frames <+: (Run.final step w events).log.accepted ∧
      trailers.sentBefore = frames.flatten ∧
      (trailers.origin = .finish →
        (Run.final step w events).log.finishAccepted = some frames.length) := by
  have hnew : w.log.cut = false := by
    rw [hw]
    rfl
  exact (delivers_invariant.run hw events hw.delivers).trailers
    (uncut_of_meets hw.rests hnew huncut)
    trailers htrailers

def deadlineCall : World where
  stream :=
    { methodPost := true
      contentTypeGrpc := true
      deadline := some 100
      deadlineEntry := some 100 }
  gzip := { compress := id, decompress := fun payload _ => .ok payload }

theorem deadlineCall_isRequest : deadlineCall.IsRequest := rfl

/-- The handler sends one message and the reactor queues its frame. -/
def sendOne : List Event :=
  [.start 0 {}, .app (.sendBegin .borrowed [7] .identity), .app (.sendCommit 0), .commands]

/-- The call finishes while the frame is handed over in two parts. -/
def finishedCall : World :=
  Run.final step deadlineCall
    (sendOne ++ [.app (.streamFinish ⟨.ok, []⟩), .read 3, .commands, .read 16])

theorem trailers_follow_whole_frames_finishedCall :
    deadlineCall.IsRequest ∧ finishedCall.log.trailers =
        some { status := ⟨.ok, []⟩, metadata := [], origin := .finish,
               sentBefore := [0, 0, 0, 0, 1, 7] } ∧
      ∃ frames, frames <+: finishedCall.log.accepted ∧ [0, 0, 0, 0, 1, 7] = frames.flatten ∧
        (StatusOrigin.finish = .finish → finishedCall.log.finishAccepted = some frames.length) :=
  have htrailers : finishedCall.log.trailers =
      some { status := ⟨.ok, []⟩, metadata := [], origin := .finish,
             sentBefore := [0, 0, 0, 0, 1, 7] } := by decide +kernel
  ⟨deadlineCall_isRequest, htrailers,
    trailers_follow_whole_frames deadlineCall_isRequest (by decide +kernel) htrailers⟩

/-- The deadline expires when three bytes of the frame were handed over. -/
def cutCall : World :=
  Run.final step deadlineCall (sendOne ++ [.read 3, .expire 100, .read 16])

theorem deadline_cuts_frame :
    deadlineCall.IsRequest ∧ ∃ trailers, cutCall.log.trailers = some trailers ∧
      ∀ frames, frames <+: cutCall.log.accepted → trailers.sentBefore ≠ frames.flatten := by
  have haccepted : cutCall.log.accepted = [[0, 0, 0, 0, 1, 7]] := by decide +kernel
  have htrailers : cutCall.log.trailers =
      some { status := .init .deadlineExceeded "deadline exceeded", metadata := [],
             origin := .failure, sentBefore := [0, 0, 0] } := by decide +kernel
  refine ⟨deadlineCall_isRequest, _, htrailers, ?_⟩
  rw [haccepted]
  intro frames hprefix
  rcases List.prefix_cons_iff.mp hprefix with rfl | ⟨rest, rfl, hrest⟩
  · decide
  · rw [List.prefix_nil.mp hrest]
    decide

end GrpcLite.Server
