import GrpcLite.Server.Delivery
import GrpcLite.Server.Steps

/-!
# The encoding of a response

A frame says whether its message is compressed, and the response headers say with which encoding.
The headers are settled once, after the start of the call or by a command of the application,
while messages are accepted before and after that.  The invariant relates every frame under way
to the headers that were submitted or will be.
-/

namespace GrpcLite.Server

open Prog

def IsCompressed (frame : Bytes) : Prop := frame.head? = some 1

variable {gzip : Gzip} {frame : Bytes} {command : CommandAction}
  {f : StreamingState → StreamingState}

theorem compression_eq_gzip_of_isCompressed {payload : Bytes} {compression : Compression}
    (h : Frame.encodeWithCompression gzip payload compression = .ok frame)
    (hframe : IsCompressed frame) : compression = .gzip := by
  cases compression with
  | gzip => rfl
  | identity =>
    simp only [Frame.encodeWithCompression, Frame.encodePayload] at h
    split at h
    · cases h
    · cases h
      exact absurd hframe (by simp [IsCompressed])

/-- No send stands before the command that sends the response headers. -/
def headersFirst : List CommandAction → Bool
  | [] => true
  | .initialMetadata _ _ :: _ => true
  | .send _ :: _ => false
  | _ :: rest => headersFirst rest

theorem headersFirst_append {queue : List CommandAction} (h : headersFirst queue)
    (hcommand : command.isSend = false ∨ queue.any (·.isInitialMetadata)) :
    headersFirst (queue ++ [command]) := by
  induction queue with
  | nil =>
    have hother : command.isSend = false := by simpa using hcommand
    cases command with
    | send => exact absurd hother nofun
    | _ => rfl
  | cons first rest ih =>
    cases first with
    | initialMetadata => rfl
    | send => exact absurd h nofun
    | finish | resumeReceive =>
      exact ih h (by simpa [CommandAction.isInitialMetadata] using hcommand)

theorem headersFirst_of_cons {rest : List CommandAction} (h : headersFirst (command :: rest))
    (hcommand : command.isInitialMetadata = false) : headersFirst rest := by
  cases command with
  | initialMetadata => exact absurd hcommand nofun
  | send => exact absurd h nofun
  | finish => exact h
  | resumeReceive => exact h

/-- The part of the world that the encoding of a response depends on. -/
structure Responding where
  accepts : Bool
  active : Bool
  explicit : Bool
  headersQueued : Bool
  submitted : Bool
  compression : Compression
  gzipRequested : Bool
  sending : List SendInProgress
  batch : List CommandAction
  commands : List CommandAction
  outbound : List OutboundMessage
  completed : List Bytes
  headers : Option Compression

def World.responding (w : World) : Responding where
  accepts := w.stream.acceptsResponseGzip
  active := w.stream.streamingActive
  explicit := w.stream.isExplicit
  headersQueued := w.stream.responseHeadersQueued
  submitted := w.stream.responseHeadersSubmitted
  compression := w.stream.responseCompression
  gzipRequested := w.stream.responseGzipRequested
  sending := w.sending
  batch := w.batch
  commands := w.commands
  outbound := w.outbound
  completed := w.log.completed
  headers := w.log.headers.map Prod.fst

namespace Responding

def queue (r : Responding) : List CommandAction := r.batch ++ r.commands

def negotiate (r : Responding) (compression : Compression) : Compression :=
  if r.accepts ∧ compression = .gzip then .gzip else .identity

/-- The response headers, if nghttp2 took them, announce gzip. -/
def Announces (r : Responding) : Prop := r.submitted ∧ r.headers ≠ some .identity

def Promises (r : Responding) : Prop :=
  if r.submitted then r.headers ≠ some .identity
  else if r.explicit then r.headersQueued ∧ r.compression = .gzip
  else r.gzipRequested ∧ r.accepts

structure Sound (r : Responding) : Prop where
  flagged : ∀ send ∈ r.sending, IsCompressed send.encoded → send.compression = .gzip
  accepted : ∀ send ∈ r.sending, send.compression = .gzip → r.accepts
  queued : r.active → ∀ frame, .send frame ∈ r.queue → IsCompressed frame → r.Promises
  outbound : ∀ item ∈ r.outbound, IsCompressed item.bytes → r.Announces
  begun : ∀ item ∈ r.outbound, 0 < item.offset → r.headers.isSome
  completed : ∀ frame ∈ r.completed, IsCompressed frame → r.headers = some .gzip
  silent : r.submitted = false → r.outbound = []
  ordered : r.active → r.submitted = false →
    if r.explicit then headersFirst r.queue else r.batch = []
  announcing : r.active → r.explicit → r.headersQueued → r.submitted = false →
    r.queue.any (·.isInitialMetadata)
  unannounced : r.headersQueued = false → ∀ command ∈ r.queue, command.isInitialMetadata = false
  negotiated : r.active → r.submitted = false → ∀ entries compression,
    .initialMetadata entries compression ∈ r.queue → r.negotiate compression = r.compression

variable {r : Responding}

theorem Promises.of_submitted (h : r.Promises) (hsubmitted : r.submitted) :
    r.headers ≠ some .identity := by
  rwa [Promises, if_pos hsubmitted] at h

theorem Promises.of_explicit (h : r.Promises) (hnew : r.submitted = false)
    (hexplicit : r.explicit) :
    r.headersQueued ∧ r.compression = .gzip := by
  rwa [Promises, if_neg (by simp [hnew]), if_pos hexplicit] at h

theorem Promises.of_automatic (h : r.Promises) (hnew : r.submitted = false)
    (hautomatic : r.explicit = false) : r.gzipRequested ∧ r.accepts := by
  rwa [Promises, if_neg (by simp [hnew]), if_neg (by simp [hautomatic])] at h

namespace Sound

variable {r : Responding}

variable {command : CommandAction} {bytes : Bytes} {item : OutboundMessage}

section

variable (h : r.Sound)

include h

/-- A command that is not the one for the response headers.  A compressed send is promised gzip
headers, and a send does not come before them. -/
theorem enqueue (hheaders : command.isInitialMetadata = false)
    (hpromise : ∀ frame, command = .send frame → IsCompressed frame → r.Promises)
    (hfirst : command.isSend → r.explicit → r.headersQueued) :
    Sound { r with commands := r.commands ++ [command] } := by
  have hqueue : queue { r with commands := r.commands ++ [command] } = r.queue ++ [command] :=
    (List.append_assoc ..).symm
  refine { h with
    queued := fun hactive frame hmem hflag => ?_
    ordered := fun hactive hnew => ?_
    announcing := fun hactive hexplicit hqueued hnew => ?_
    unannounced := fun hqueued => ?_
    negotiated := fun hactive hnew entries compression hmem => ?_ }
  · rw [hqueue] at hmem
    rcases List.mem_append.mp hmem with hmem | hmem
    · exact h.queued hactive frame hmem hflag
    · exact hpromise frame (List.mem_singleton.mp hmem).symm hflag
  · have hordered := h.ordered hactive hnew
    rw [hqueue]
    by_cases hexplicit : r.explicit
    · rw [if_pos hexplicit] at hordered ⊢
      refine headersFirst_append hordered ?_
      by_cases hsend : command.isSend
      · exact .inr (h.announcing hactive hexplicit (hfirst hsend hexplicit) hnew)
      · exact .inl (by simpa using hsend)
    · rwa [if_neg hexplicit] at hordered ⊢
  · rw [hqueue, List.any_append, h.announcing hactive hexplicit hqueued hnew, Bool.true_or]
  · rw [hqueue]
    exact List.forall_mem_append.mpr ⟨h.unannounced hqueued, List.forall_mem_singleton.mpr hheaders⟩
  · rw [hqueue] at hmem
    rcases List.mem_append.mp hmem with hmem | hmem
    · exact h.negotiated hactive hnew entries compression hmem
    · rw [← List.mem_singleton.mp hmem] at hheaders
      exact absurd hheaders nofun

theorem eraseSending (index : ℕ) :
    Sound { r with sending := r.sending.eraseIdx index } :=
  { h with
    flagged := fun send hsend => h.flagged send (List.mem_of_mem_eraseIdx hsend)
    accepted := fun send hsend => h.accepted send (List.mem_of_mem_eraseIdx hsend) }

theorem requestGzip (requested : Bool) :
    Sound { r with gzipRequested := r.gzipRequested || requested } := by
  refine { h with queued := fun hactive frame hmem hflag => ?_ }
  have hpromise := h.queued hactive frame hmem hflag
  unfold Promises at hpromise ⊢
  split_ifs at hpromise ⊢ with hsubmitted hexplicit
  · exact hpromise
  · exact hpromise
  · exact ⟨by simp [hpromise.1], hpromise.2⟩

theorem send {send : SendInProgress} {index : ℕ} (hsend : r.sending[index]? = some send)
    (hqueued : r.explicit → r.headersQueued)
    (hencoding : r.explicit → send.compression = .gzip → r.compression = .gzip)
    (hintime : send.compression = .gzip → r.headers ≠ some .identity) :
    Sound { r with
      sending := r.sending.eraseIdx index
      commands := r.commands ++ [.send send.encoded]
      gzipRequested := r.gzipRequested || decide (send.compression = .gzip) } := by
  have hmem : send ∈ r.sending := List.mem_of_getElem? hsend
  refine ((h.requestGzip _).eraseSending index).enqueue rfl (fun frame hframe hflag => ?_)
    fun _ => hqueued
  obtain rfl := CommandAction.send.inj hframe
  have hgzip := h.flagged send hmem hflag
  unfold Promises
  split
  · exact hintime hgzip
  · split
    · exact ⟨hqueued ‹_›, hencoding ‹_› hgzip⟩
    · exact ⟨by simp [hgzip], h.accepted send hmem hgzip⟩

/-- A compressed send before the headers were queued needs headers that are out already. -/
theorem announced (hexplicit : r.explicit) (hnew : r.headersQueued = false)
    (hactive : r.active) {frame : Bytes} (hmem : .send frame ∈ r.queue)
    (hflag : IsCompressed frame) : r.submitted ∧ r.headers ≠ some .identity := by
  have hpromise := h.queued hactive frame hmem hflag
  by_cases hsubmitted : r.submitted
  · exact ⟨hsubmitted, hpromise.of_submitted hsubmitted⟩
  · have hqueued := (hpromise.of_explicit (by simpa using hsubmitted) hexplicit).1
    cases hnew.symm.trans hqueued

theorem initialMetadata (entries : List Entry) (compression : Compression)
    (hexplicit : r.explicit) (hnew : r.headersQueued = false) :
    Sound { r with
      commands := r.commands ++ [.initialMetadata entries compression]
      headersQueued := true
      compression := r.negotiate compression } := by
  have hqueue : queue { r with
      commands := r.commands ++ [.initialMetadata entries compression]
      headersQueued := true
      compression := r.negotiate compression } =
      r.queue ++ [.initialMetadata entries compression] := (List.append_assoc ..).symm
  refine { h with
    queued := fun hactive frame hmem hflag => ?_
    ordered := fun hactive hsilent => ?_
    announcing := fun _ _ _ _ => ?_
    unannounced := nofun
    negotiated := fun hactive hsilent entries' compression' hmem => ?_ }
  · rw [hqueue] at hmem
    rcases List.mem_append.mp hmem with hmem | hmem
    · have hout := h.announced hexplicit hnew hactive hmem hflag
      rw [Promises, if_pos hout.1]
      exact hout.2
    · exact absurd (List.mem_singleton.mp hmem) nofun
  · have hordered := h.ordered hactive hsilent
    rw [if_pos hexplicit] at hordered ⊢
    rw [hqueue]
    exact headersFirst_append hordered (.inl rfl)
  · rw [hqueue, List.any_append]
    simp [CommandAction.isInitialMetadata]
  · rw [hqueue] at hmem
    rcases List.mem_append.mp hmem with hmem | hmem
    · exact absurd (h.unannounced hnew _ hmem) nofun
    · obtain ⟨-, rfl⟩ := CommandAction.initialMetadata.inj (List.mem_singleton.mp hmem)
      rfl

theorem initialMetadataFailed (hexplicit : r.explicit)
    (hnew : r.headersQueued = false) : Sound { r with compression := .identity } := by
  refine { h with
    queued := fun hactive frame hmem hflag => ?_
    negotiated := fun hactive hsilent entries compression hmem => ?_ }
  · have hout := h.announced hexplicit hnew hactive hmem hflag
    rw [Promises, if_pos hout.1]
    exact hout.2
  · exact absurd (h.unannounced hnew _ hmem) nofun

theorem announce (hnew : r.submitted = false) (hsilent : r.headers = none)
    {compression : Compression} (queued : Bool) (outcome : Option (List Entry))
    (hqueued : r.headersQueued → queued)
    (hgzip : r.active → ∀ frame, .send frame ∈ r.queue → IsCompressed frame → compression = .gzip) :
    Sound { r with
      headersQueued := queued
      submitted := true
      compression := compression
      headers := outcome.map fun _ => compression } :=
  { h with
    queued := fun hactive frame hmem hflag => by
      rw [Promises, if_pos rfl, hgzip hactive frame hmem hflag]
      cases outcome with
      | none => exact nofun
      | some => exact nofun
    outbound := fun item hitem => by simp [h.silent hnew] at hitem
    begun := fun item hitem => by simp [h.silent hnew] at hitem
    completed := fun frame hframe hflag => by
      have hbefore := h.completed frame hframe hflag
      rw [hsilent] at hbefore
      exact absurd hbefore nofun
    silent := nofun
    ordered := nofun
    announcing := nofun
    unannounced := fun hno => h.unannounced (by
      by_contra hyes
      rw [hqueued (by simpa using hyes)] at hno
      exact absurd hno nofun)
    negotiated := nofun }

theorem stop : Sound { r with active := false } :=
  { h with
    queued := nofun
    ordered := nofun
    announcing := nofun
    negotiated := nofun }

end

variable {rest : List CommandAction}

variable (h : r.Sound)

include h

theorem submitted_of_send (hbatch : r.batch = .send bytes :: rest)
    (hactive : r.active) : r.submitted := by
  by_contra hnew
  have hordered := h.ordered hactive (by simpa using hnew)
  rw [queue, hbatch] at hordered
  split at hordered
  · exact absurd hordered nofun
  · exact absurd hordered nofun

theorem take (hbatch : r.batch = .send bytes :: rest) (hactive : r.active) :
    Sound { r with outbound := r.outbound ++ [⟨bytes, 0⟩] } := by
  have hsubmitted := h.submitted_of_send hbatch hactive
  have hmem : CommandAction.send bytes ∈ r.queue := by
    rw [queue, hbatch]
    exact List.mem_cons_self
  refine { h with
    outbound := fun item hitem hflag => ?_
    begun := fun item hitem hoffset => ?_
    silent := fun hnew => by cases hnew.symm.trans hsubmitted }
  · rcases List.mem_append.mp hitem with hitem | hitem
    · exact h.outbound item hitem hflag
    · rw [List.mem_singleton.mp hitem] at hflag
      exact ⟨hsubmitted, (h.queued hactive bytes hmem hflag).of_submitted hsubmitted⟩
  · rcases List.mem_append.mp hitem with hitem | hitem
    · exact h.begun item hitem hoffset
    · rw [List.mem_singleton.mp hitem] at hoffset
      exact absurd hoffset (Nat.lt_irrefl 0)

theorem handOver {rest : List OutboundMessage} (length : ℕ)
    (hout : r.outbound = item :: rest) (hheaders : r.headers.isSome) :
    Sound { r with outbound := { item with offset := item.offset + length } :: rest } := by
  refine { h with
    outbound := fun other hother hflag => ?_
    begun := fun _ _ _ => hheaders
    silent := fun hnew => by cases hout.symm.trans (h.silent hnew) }
  rcases List.mem_cons.mp hother with rfl | hother
  · exact h.outbound item (by simp [hout]) hflag
  · exact h.outbound other (by simp [hout, hother]) hflag

theorem complete {rest : List OutboundMessage} (hout : r.outbound = item :: rest)
    (hwhole : item.offset = item.bytes.length) :
    Sound { r with outbound := rest, completed := r.completed ++ [item.bytes] } := by
  have hitem : item ∈ r.outbound := by simp [hout]
  refine { h with
    outbound := fun other hother => h.outbound other (by simp [hout, hother])
    begun := fun other hother => h.begun other (by simp [hout, hother])
    silent := fun hnew => by cases hout.symm.trans (h.silent hnew)
    completed := fun frame hframe hflag => ?_ }
  rcases List.mem_append.mp hframe with hframe | hframe
  · exact h.completed frame hframe hflag
  · obtain rfl := List.mem_singleton.mp hframe
    have hbegun : 0 < item.offset := by
      rw [hwhole]
      refine List.length_pos_of_ne_nil fun hnil => ?_
      rw [IsCompressed, hnil] at hflag
      exact absurd hflag nofun
    obtain ⟨compression, hheaders⟩ := Option.isSome_iff_exists.mp (h.begun item hitem hbegun)
    have hother := (h.outbound item hitem hflag).2
    cases compression with
    | gzip => exact hheaders
    | identity => exact absurd hheaders hother

theorem commandDone (hbatch : r.batch = command :: rest)
    (hsettled : command.isInitialMetadata → r.active → r.submitted) :
    Sound { r with batch := rest } := by
  have hqueue : r.queue = command :: queue { r with batch := rest } := by
    rw [queue, hbatch]
    rfl
  have hmem : ∀ {other}, other ∈ queue { r with batch := rest } → other ∈ r.queue := by
    intro other hother
    rw [hqueue]
    exact List.mem_cons_of_mem _ hother
  have hother : r.active → r.submitted = false → command.isInitialMetadata = false := by
    intro hactive hnew
    by_contra hheaders
    cases hnew.symm.trans (hsettled (by simpa using hheaders) hactive)
  refine { h with
    queued := fun hactive frame hframe => h.queued hactive frame (hmem hframe)
    ordered := fun hactive hnew => ?_
    announcing := fun hactive hexplicit hqueued hnew => ?_
    unannounced := fun hqueued other hother => h.unannounced hqueued other (hmem hother)
    negotiated := fun hactive hnew entries compression hheaders =>
      h.negotiated hactive hnew entries compression (hmem hheaders) }
  · have hordered := h.ordered hactive hnew
    split at hordered
    · rename_i hexplicit
      rw [if_pos hexplicit]
      rw [hqueue] at hordered
      exact headersFirst_of_cons hordered (hother hactive hnew)
    · rw [hbatch] at hordered
      exact absurd hordered nofun
  · have hany := h.announcing hactive hexplicit hqueued hnew
    rwa [hqueue, List.any_cons, hother hactive hnew, Bool.false_or] at hany

theorem swap (hbatch : r.batch = []) (hannounced : r.active → r.explicit = false → r.submitted) :
    Sound { r with batch := r.commands, commands := [] } := by
  have hqueue : queue { r with batch := r.commands, commands := [] } = r.queue := by
    rw [queue, queue, hbatch, List.append_nil, List.nil_append]
  refine { h with
    queued := fun hactive frame hmem => h.queued hactive frame (hqueue ▸ hmem)
    ordered := fun hactive hnew => ?_
    announcing := fun hactive hexplicit hqueued hnew => by
      rw [hqueue]
      exact h.announcing hactive hexplicit hqueued hnew
    unannounced := fun hqueued command hmem => h.unannounced hqueued command (hqueue ▸ hmem)
    negotiated := fun hactive hnew entries compression hmem =>
      h.negotiated hactive hnew entries compression (hqueue ▸ hmem) }
  have hordered := h.ordered hactive hnew
  by_cases hexplicit : r.explicit
  · rw [if_pos hexplicit] at hordered ⊢
    rwa [hqueue]
  · have hsubmitted := hannounced hactive (by simpa using hexplicit)
    cases hnew.symm.trans hsubmitted

end Sound

end Responding

/-! ## Every move keeps the invariant -/

/-- No compressed message is accepted after response headers went out that say identity. -/
def Log.GzipInTime (log : Log) : Prop :=
  ∀ send ∈ log.sends, send.compression = .gzip → send.headers ≠ some .identity

instance (log : Log) : Decidable log.GzipInTime :=
  inferInstanceAs (Decidable (∀ send ∈ log.sends, _))

variable {w : World} {hand : Hand} {c : Config}

theorem responding_map {g : List OutboundMessage → List OutboundMessage}
    (hhandler : ∀ st, (f st).handler = st.handler) (hout : ∀ st, (f st).outbound = g st.outbound)
    (hg : w.stream.streaming = none → g [] = []) :
    World.responding { w with stream := { w.stream with streaming := w.stream.streaming.map f } } =
      { w.responding with outbound := g w.outbound } := by
  have hoverall : World.outbound
      { w with stream := { w.stream with streaming := w.stream.streaming.map f } } =
      g w.outbound := by
    unfold World.outbound
    cases hstreaming : w.stream.streaming with
    | none => exact (hg hstreaming).symm
    | some => simp [hout]
  have hexplicit := isExplicit_map (s := w.stream) hhandler
  simp only [World.responding, hoverall, hexplicit]

theorem sound_of_map (hhandler : ∀ st, (f st).handler = st.handler)
    (hout : ∀ st, (f st).outbound = st.outbound) (h : w.responding.Sound) :
    (World.responding
      { w with stream := { w.stream with streaming := w.stream.streaming.map f } }).Sound := by
  rw [responding_map (g := id) hhandler hout fun _ => rfl]
  exact h

theorem responding_announce (w : World) (compression : Compression)
    (outcome : Option (List Entry)) :
    (w.announce compression outcome).responding =
      { w.responding with
        submitted := true
        compression := compression
        headers := outcome.map fun _ => compression } := by
  have hheaders : (outcome.map fun entries => (compression, entries)).map Prod.fst =
      outcome.map fun _ => compression := by simp [Function.comp_def]
  simp only [World.announce, World.responding, hheaders]
  rfl

theorem AppMove.responding {w' : World} (hmove : AppMove w w') (htime : w'.log.GzipInTime)
    (h : w.responding.Sound) : w'.responding.Sound := by
  cases hmove with
  | sendBegin handle payload encoded compression hencoded haccepts =>
    exact { h with
      flagged := List.forall_mem_append.mpr
        ⟨h.flagged, List.forall_mem_singleton.mpr (compression_eq_gzip_of_isCompressed hencoded)⟩
      accepted := List.forall_mem_append.mpr ⟨h.accepted, List.forall_mem_singleton.mpr haccepts⟩ }
  | sendDropped index => exact h.eraseSending index
  | gzipNoted =>
    have hnoted := h.requestGzip true
    rwa [Bool.or_true] at hnoted
  | send index send hsend hallowed =>
    refine h.send hsend (fun hexplicit =>
      hallowed.queued (by simpa [World.responding] using hexplicit))
      (fun hexplicit => hallowed.encoding (by simpa [World.responding] using hexplicit))
        fun hgzip => ?_
    exact htime _ (List.mem_append_right _ (List.mem_singleton_self _)) hgzip
  | initialMetadata entries compression hactive hexplicit hnew =>
    exact h.initialMetadata entries compression (by simpa [World.responding] using hexplicit) hnew
  | initialMetadataFailed hactive hexplicit hnew =>
    exact h.initialMetadataFailed (by simpa [World.responding] using hexplicit) hnew
  | finish | resumeQueued => exact h.enqueue rfl nofun nofun
  | context => exact sound_of_map (fun _ => rfl) (fun _ => rfl) h
  | contextTrailing entry =>
    exact sound_of_map (f := (·.addTrailing entry)) (fun _ => rfl) (fun _ => rfl) h
  | _ => exact h

theorem StopMove.responding (hmove : StopMove hand w c) (htime : c.world.log.GzipInTime)
    (h : w.responding.Sound) : c.world.responding.Sound := by
  cases hmove with
  | app hmove => exact hmove.responding htime h
  | discard hinactive =>
    have hstopped : ∀ {P : Prop}, w.stream.streamingActive → P :=
      fun hactive => by cases hinactive.symm.trans hactive
    refine { h with
      queued := hstopped
      ordered := hstopped
      announcing := hstopped
      negotiated := hstopped
      unannounced := fun hqueued command hmem => h.unannounced hqueued command ?_ }
    have hbatch : command ∈ w.batch ++ [] := hmem
    rw [List.append_nil] at hbatch
    exact List.mem_append_left _ hbatch
  | clear =>
    have hcleared := responding_map (w := w) (f := fun st => { st with outbound := [] })
      (g := fun _ => []) (fun _ => rfl) (fun _ => rfl) fun _ => rfl
    rw [hcleared]
    exact { h with outbound := nofun, begun := nofun, silent := fun _ => rfl }
  | cancel => exact h.stop
  | _ => exact h

theorem Move.responding (hmove : Move hand w c) (hbase : w.Base) (htime : c.world.log.GzipInTime)
    (h : w.responding.Sound) : c.world.responding.Sound := by
  cases hmove with
  | stop hmove => exact hmove.responding htime h
  | announceAutomatic outcome hbatch hactive hautomatic hnew =>
    have hgzip : w.responding.active → ∀ frame, .send frame ∈ w.responding.queue →
        IsCompressed frame → w.stream.automaticCompression = .gzip := by
      intro _ frame hframe hflag
      obtain ⟨hrequested, haccepts⟩ := (h.queued hactive frame hframe hflag).of_automatic hnew
        (by simpa [World.responding] using hautomatic)
      exact if_pos ⟨haccepts, .inr hrequested⟩
    rw [responding_announce]
    exact h.announce hnew (by simp [World.responding, hbase.headersNew hnew]) true outcome
      (fun _ => rfl) hgzip
  | announceExplicit entries compression rest outcome hbatch hactive hnew =>
    have hmem : CommandAction.initialMetadata entries compression ∈ w.responding.queue := by
      rw [Responding.queue, show w.responding.batch = _ from hbatch]
      exact List.mem_cons_self
    have hgzip : w.responding.active → ∀ frame, .send frame ∈ w.responding.queue →
        IsCompressed frame → w.stream.negotiate compression = .gzip := by
      intro _ frame hframe hflag
      have hexplicit : w.responding.explicit := by
        by_contra hother
        have hordered := h.ordered hactive hnew
        rw [if_neg hother, show w.responding.batch = _ from hbatch] at hordered
        exact absurd hordered nofun
      have hpromise := (h.queued hactive frame hframe hflag).of_explicit hnew hexplicit
      exact (h.negotiated hactive hnew entries compression hmem).trans hpromise.2
    rw [responding_announce]
    exact h.announce hnew (by simp [World.responding, hbase.headersNew hnew])
      w.stream.responseHeadersQueued outcome (fun hqueued => hqueued) hgzip
  | announceFailure outcome hstarted hinactive hnew =>
    rw [responding_announce]
    exact h.announce hnew (by simp [World.responding, hbase.headersNew hnew]) true outcome
      (fun _ => rfl) fun hactive => by cases hinactive.symm.trans hactive
  | fail | forceAbort | retire => exact h.stop
  | fed | feedFailed | decoded | requestEncoding | remoteEndReceived | remoteEnd =>
    exact sound_of_map (fun _ => rfl) (fun _ => rfl) h
  | take bytes rest hbatch hactive =>
    have htaken := responding_map (w := w)
      (f := fun st => { st with outbound := st.outbound ++ [⟨bytes, 0⟩] })
      (g := (· ++ [⟨bytes, 0⟩])) (fun _ => rfl) (fun _ => rfl)
      fun hnone => absurd hnone (started_ne_none (hbase.running hactive).1)
    rw [htaken]
    exact h.take hbatch hactive
  | handOver item rest length hreadable hout =>
    have hout' : w.outbound = item :: rest := by simp [World.outbound, hout]
    have hheaders : w.responding.headers.isSome := by
      simp only [World.readable, Bool.and_eq_true] at hreadable
      simpa [World.responding] using hreadable.1.1.2
    have hhanded := responding_map (w := w)
      (f := fun st => { st with outbound := { item with offset := item.offset + length } :: rest })
      (g := fun _ => { item with offset := item.offset + length } :: rest) (fun _ => rfl)
      (fun _ => rfl) fun hnone => by simp [hnone] at hout
    exact (congrArg Responding.Sound hhanded).mpr (h.handOver length hout' hheaders)
  | complete item rest hout hwhole =>
    have hout' : w.outbound = item :: rest := by simp [World.outbound, hout]
    have hdone := h.complete hout' hwhole
    have hmoved := responding_map (w := w) (f := fun st => { st with outbound := st.outbound.tail })
      (g := List.tail) (fun _ => rfl) (fun _ => rfl) fun _ => rfl
    rw [hout', List.tail_cons] at hmoved
    have hlogged : World.responding { w with
        stream := { w.stream with
          streaming := w.stream.streaming.map fun st => { st with outbound := st.outbound.tail } }
        log := { w.log with completed := w.log.completed ++ [item.bytes] } } =
        { w.responding with outbound := rest, completed := w.log.completed ++ [item.bytes] } :=
      congrArg (fun r : Responding => { r with completed := w.log.completed ++ [item.bytes] })
        hmoved
    rw [hlogged]
    exact hdone
  | commandDone command rest hbatch htaken hannounced => exact h.commandDone hbatch hannounced
  | swap hbatch hannounced =>
    exact h.swap hbatch fun hactive hautomatic =>
      hannounced hactive (by simpa [World.responding] using hautomatic)
  | _ => exact h

theorem Log.GzipInTime.of_move (hmove : Move hand w c) (h : c.world.log.GzipInTime) :
    w.log.GzipInTime := by
  cases hmove with
  | stop hmove =>
    cases hmove with
    | app hmove =>
      cases hmove with
      | send => exact fun other hother => h other (List.mem_append_left _ hother)
      | _ => exact h
    | _ => exact h
  | _ => exact h

theorem Responding.Sound.accept (hw : w.Acceptable) (hbase : w.Base) (h : w.responding.Sound)
    (handler : ServerHandler) (requestCompression : Compression) :
    (w.accept handler requestCompression).responding.Sound := by
  have hqueue : (w.accept handler requestCompression).responding.queue = [] :=
    hbase.empty hw.unstarted
  refine { h with
    queued := fun _ frame hmem => ?_
    outbound := fun _ hmem => absurd hmem List.not_mem_nil
    begun := fun _ hmem => absurd hmem List.not_mem_nil
    silent := fun _ => rfl
    ordered := fun _ _ => ?_
    announcing := fun _ hexplicit hqueued _ => ?_
    unannounced := fun _ command hmem => ?_
    negotiated := fun _ _ entries compression hmem => ?_ }
  · rw [hqueue] at hmem
    exact absurd hmem List.not_mem_nil
  · rw [hqueue]
    split
    · rfl
    · exact hw.idle
  · -- the headers of an explicit call are not queued by its start
    simp only [World.responding, World.accept, World.noted, Stream.isExplicit, Option.map_some,
      Option.some.injEq, decide_eq_true_eq] at hexplicit hqueued
    cases hexplicit.symm.trans hqueued
  · rw [hqueue] at hmem
    exact absurd hmem List.not_mem_nil
  · rw [hqueue] at hmem
    exact absurd hmem List.not_mem_nil

theorem responding_invariant : Invariant fun _ w => w.log.GzipInTime → w.responding.Sound where
  move hmove hbase h htime := hmove.responding hbase htime (h (htime.of_move hmove))
  accept handler requestCompression hw hbase h htime :=
    (h htime).accept hw hbase handler requestCompression
  marked _ h := h

theorem World.IsRequest.responding (hw : w.IsRequest) : w.responding.Sound := by
  rw [hw]
  exact ⟨nofun, nofun, nofun, nofun, nofun, nofun, fun _ => rfl, nofun, nofun, nofun, nofun⟩

/-! ## Compressed frames and their headers -/

def World.emitted (w : World) : List Bytes :=
  w.log.completed ++ (w.outbound.filter (0 < ·.offset)).map (·.bytes)

/-- A decoder at the start of a frame that is not compressed finds no compressed message. -/
theorem nextMessage_ne_compressionMismatch {decoder : Frame.Decoder} {oom : Bool}
    (hstart : (decoder.buffer.drop decoder.offset).head? = frame.head?)
    (hframe : ¬IsCompressed frame) :
    (Frame.Decoder.nextMessage gzip decoder oom).1 ≠ .error .compressionMismatch := by
  rw [IsCompressed, ← hstart] at hframe
  have hflag : decoder.buffer.drop decoder.offset ≠ [] →
      (decoder.buffer.drop decoder.offset).getD 0 0 ≠ 1 := by
    intro hsome hone
    obtain ⟨first, rest, hcons⟩ := List.exists_cons_of_ne_nil hsome
    rw [hcons] at hone hframe
    exact hframe (congrArg some hone)
  unfold Frame.Decoder.nextMessage
  dsimp only
  split
  · simp
  rename_i hlong
  have hplain := hflag fun hnil => hlong (by simp [hnil, Frame.headerSize])
  simp only [hplain, decide_false, Bool.false_eq_true, false_and, if_false]
  split_ifs <;> simp

/-- In every run in which no compressed message is accepted after identity headers went out, every
compressed frame that is emitted follows gzip headers, so that a decoder that expects identity
messages does not meet one. -/
theorem compressed_frames_follow_gzip_headers {w : World} (hw : w.IsRequest) {events : List Event}
    (htime : (Run.final step w events).log.GzipInTime) :
    (∀ frame ∈ (Run.final step w events).emitted, IsCompressed frame →
      ∃ entries, (Run.final step w events).log.headers = some (.gzip, entries)) ∧
    (∀ entries, (Run.final step w events).log.headers = some (.identity, entries) →
      ∀ frame ∈ (Run.final step w events).emitted, ∀ gzip decoder oom,
        (decoder.buffer.drop decoder.offset).head? = frame.head? →
        (Frame.Decoder.nextMessage gzip decoder oom).1 ≠ .error .compressionMismatch) := by
  have h := responding_invariant.run hw events (fun _ => hw.responding) htime
  generalize Run.final step w events = w' at h
  have hgzip : ∀ frame ∈ w'.emitted, IsCompressed frame → w'.responding.headers = some .gzip := by
    intro frame hframe hflag
    rcases List.mem_append.mp hframe with hframe | hframe
    · exact h.completed frame hframe hflag
    · obtain ⟨item, hitem, rfl⟩ := List.mem_map.mp hframe
      obtain ⟨hmem, hoffset⟩ := List.mem_filter.mp hitem
      obtain ⟨compression, hheaders⟩ :=
        Option.isSome_iff_exists.mp (h.begun item hmem (by simpa using hoffset))
      cases compression with
      | gzip => exact hheaders
      | identity => exact absurd hheaders (h.outbound item hmem hflag).2
  refine ⟨fun frame hframe hflag => ?_,
    fun entries hheaders frame hframe gzip decoder oom hstart => ?_⟩
  · obtain ⟨⟨compression, entries⟩, hheaders, rfl⟩ :=
      Option.map_eq_some_iff.mp (hgzip frame hframe hflag)
    exact ⟨entries, hheaders⟩
  · refine nextMessage_ne_compressionMismatch hstart fun hflag => ?_
    have hboth := hgzip frame hframe hflag
    simp [World.responding, hheaders] at hboth

def gzipCall : World where
  stream := { methodPost := true, contentTypeGrpc := true, acceptsResponseGzip := true }
  gzip := { compress := id, decompress := fun payload _ => .ok payload }

theorem gzipCall_isRequest : gzipCall.IsRequest := rfl

/-- The handler has its context ask for gzip, and a compressed message follows. -/
def announcedCall : World :=
  Run.final step { gzipCall with
      env := { callbacks := [{ actions := [.contextCompression .gzip] }] } }
    [.start 0 {}, .app (.sendBegin .borrowed [7] .gzip), .app (.sendCommit 0), .commands, .read 16]

theorem compressed_frames_follow_gzip_headers_announcedCall :
    announcedCall.log.GzipInTime ∧ announcedCall.emitted = [[1, 0, 0, 0, 1, 7]] ∧
    (∀ frame ∈ announcedCall.emitted, IsCompressed frame →
      ∃ entries, announcedCall.log.headers = some (.gzip, entries)) ∧
    (∀ entries, announcedCall.log.headers = some (.identity, entries) →
      ∀ frame ∈ announcedCall.emitted, ∀ gzip decoder oom,
        (decoder.buffer.drop decoder.offset).head? = frame.head? →
        (Frame.Decoder.nextMessage gzip decoder oom).1 ≠ .error .compressionMismatch) :=
  have htime : announcedCall.log.GzipInTime := by decide +kernel
  ⟨htime, by decide +kernel, compressed_frames_follow_gzip_headers
    (w := { gzipCall with env := { callbacks := [{ actions := [.contextCompression .gzip] }] } })
    rfl htime⟩

/-- The handler asks for nothing at its start, so identity headers are submitted; a compressed
message is accepted after that. -/
def mismatchedCall : World :=
  Run.final step gzipCall
    [.start 0 {}, .app (.sendBegin .retained [7] .gzip), .app (.sendCommit 0), .commands, .read 16]

theorem compressed_frame_under_identity : gzipCall.IsRequest ∧
    mismatchedCall.log.headers = some (.identity, []) ∧
    mismatchedCall.emitted = [[1, 0, 0, 0, 1, 7]] ∧ IsCompressed [1, 0, 0, 0, 1, 7] ∧
    (Frame.Decoder.nextMessage gzipCall.gzip
      { maxMessageSize := 16, compression := .identity, buffer := [1, 0, 0, 0, 1, 7] } false).1 =
        .error .compressionMismatch :=
  ⟨gzipCall_isRequest, by decide +kernel, by decide +kernel, rfl, rfl⟩

end GrpcLite.Server
