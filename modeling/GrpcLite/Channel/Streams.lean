import GrpcLite.Channel.Members

/-!
# What the streams of a channel hold

Every action of a stream, from its construction to the end of its storage, leaves the shared state
accounting for the shares of all RPCs.
-/

namespace GrpcLite.Channel

section Streams

variable {unary stream : Limits} {s : Shared} {n : Share} {st : Stream}

theorem Stream.destroy_balances (hstored : st.stage.isStored = true)
    (h : Balances unary stream s (n + st.share)) :
    Balances unary stream (st.destroy s).1 (n + (st.destroy s).2.share) := by
  have hafter : n + (st.destroy s).2.share =
      n + flagShare st.operationalActive (.gauge .activeStreams) + endShare st.counted := by
    simp [destroy, share, add_assoc]
  have hsplit : n + st.share = n + (st.destroy s).2.share + flagShare st.retained .references +
      streamShare st.charge + one (.gauge .streamInboundBytes) st.inboundBuffered +
        one (.gauge .streamOutboundBytes) st.outboundBuffered := by
    rw [hafter, share, if_pos hstored]
    abel
  rw [hsplit] at h
  have hreleased := h.subtract.subtract.releaseStream
  cases hretained : st.retained with
  | true =>
    rw [hretained, flagShare_true] at hreleased
    have hfreed := hreleased.releaseReference
    simpa [destroy, hretained] using hfreed
  | false =>
    rw [hretained, flagShare_false, add_zero] at hreleased
    simpa [destroy, hretained] using hreleased

theorem Stream.Sound.destroy (hsound : st.Sound) (hstored : st.stage.isStored = true)
    (hended : st.accepted = true → st.terminal = true) : (st.destroy s).2.Sound := by
  have hrefused : st.stage ≠ .refused := fun h => by simp [h] at hstored
  have hfreed : st.stage ≠ .freed := fun h => by simp [h] at hstored
  have hreservations : st.reservations = 1 := by simp [hsound.reservations, hrefused]
  have hreleases : st.releases = 0 := by simp [hsound.releases, hfreed]
  have hactive : st.operationalActive = false := by
    rw [hsound.active]
    by_cases hlive : st.stage = .live
    · simp [hended (hsound.accepted hlive)]
    · simp [hlive]
  constructor <;>
    simp [Stream.destroy, hreservations, hreleases, hactive, hsound.counted]
  · exact hended
  · exact hsound.unaccepted

structure Stream.Unseen (st : Stream) : Prop where
  accepted : st.accepted = false
  terminal : st.terminal = false
  counted : st.counted = none
  active : st.operationalActive = false
  outboundBuffered : st.outboundBuffered = 0
  inboundBuffered : st.inboundBuffered = 0

theorem Stream.Sound.unseen (hsound : st.Sound) (hlive : st.stage ≠ .live)
    (hfreed : st.stage ≠ .freed) : st.Unseen := by
  have haccepted : st.accepted = false := by
    by_contra haccepted
    have hearly := hsound.early (by simpa using haccepted)
    simp [hlive, hfreed] at hearly
  exact ⟨haccepted, hsound.unaccepted haccepted, by simpa [haccepted] using hsound.counted,
    by simp [hsound.active, hlive], (hsound.empty hlive).1, (hsound.empty hlive).2⟩

/-- What an action does to a stream: its buffers are filled and emptied by one item at a time, and
its storage goes when it was not accepted or has ended. -/
inductive Stream.Acts (s : Shared) (st : Stream) : Shared × Stream → Prop
  | same : Acts s st (s, st)
  | create (metadata : List Entry) (hstage : st.stage = .building [.create, .path] metadata) :
      Acts s st ({ s with references := s.references + 1 },
        { st with stage := .building [.path] metadata, retained := true })
  | build {allocations : List Allocation} {metadata : List Entry} (stage : Stage)
      (hstage : st.stage = .building allocations metadata)
      (hallocations : allocations = [.path] ∨ allocations = [])
      (hnext : stage = .built ∨ ∃ metadata, stage = .building [] metadata) :
      Acts s st (s, { st with stage := stage })
  | accept (hbuilt : st.stage = .built) :
      Acts s st ({ s with stats := s.stats.add .activeStreams 1 },
        { st with stage := .live, operationalActive := true, accepted := true })
  | send (hlive : st.stage = .live) (length : ℕ)
      (hroom : st.outboundBuffered + length ≤ st.limits.maxOutboundBufferSize) :
      Acts s st ({ s with stats := s.stats.add .streamOutboundBytes length },
        { st with
          outbound := st.outbound ++ [{ length }]
          outboundBuffered := st.outboundBuffered + length })
  | offset (item : OutboundFrame) (rest : List OutboundFrame) (hitem : st.outbound = item :: rest)
      (offset : ℕ) : Acts s st (s, { st with outbound := { item with offset := offset } :: rest })
  | sent (hlive : st.stage = .live) (item : OutboundFrame) (rest : List OutboundFrame)
      (hitem : st.outbound = item :: rest) :
      Acts s st ({ s with stats := s.stats.subtract .streamOutboundBytes item.length },
        { st with outbound := rest, outboundBuffered := st.outboundBuffered - item.length })
  | queue (hlive : st.stage = .live) (size : ℕ)
      (hroom : st.inboundBuffered + size ≤ st.limits.maxInboundBufferSize) :
      Acts s st ({ s with stats := s.stats.add .streamInboundBytes size },
        { st with inbound := st.inbound ++ [size], inboundBuffered := st.inboundBuffered + size })
  | deliver (hlive : st.stage = .live) (size : ℕ) (rest : List ℕ)
      (hitem : st.inbound = size :: rest) :
      Acts s st ({ s with stats := s.stats.subtract .streamInboundBytes size },
        { st with inbound := rest, inboundBuffered := st.inboundBuffered - size })
  | terminalize (hlive : st.stage = .live) (hopen : st.terminal = false) (code : Code) :
      Acts s st ({ s with stats := s.stats.terminal .activeStreams code },
        { st with terminal := true, operationalActive := false, counted := some code })
  | release (appOwned loopOwned : Bool)
      (hended : loopOwned = false → st.loopOwned = false ∨ st.terminal) :
      Acts s st (s, { st with appOwned := appOwned, loopOwned := loopOwned })
  | destroy (appOwned loopOwned : Bool) (hstored : st.stage.isStored = true)
      (hended : st.accepted = true → st.terminal = true) :
      Acts s st (destroy s { st with appOwned := appOwned, loopOwned := loopOwned })

section

variable (hsound : st.Sound)

include hsound

theorem Stream.Sound.unaccepted_of (hlive : st.stage ≠ .live) (hstored : st.stage.isStored = true) :
    st.accepted = true → st.terminal = true := by
  intro haccepted
  obtain hyes | hfreed := hsound.early haccepted
  · exact absurd hyes hlive
  · simp [hfreed] at hstored

theorem Stream.build_acts (fails : Bool) : st.Acts s (st.build fails s) := by
  obtain ⟨allocations, metadata, hstage, -⟩ | ⟨hnot, hsame⟩ := st.stage.build_cases fails
  · have hfailed : st.Acts s (st.destroy s) := .destroy st.appOwned st.loopOwned (by simp [hstage])
      (hsound.unaccepted_of (by simp [hstage]) (by simp [hstage]))
    unfold build
    rw [hstage]
    obtain rfl | rfl | rfl := hsound.shape _ _ hstage
    · cases fails with
      | true => exact hfailed
      | false => exact .create _ hstage
    · cases fails with
      | true => exact hfailed
      | false => exact .build _ hstage (.inl rfl) (.inr ⟨_, rfl⟩)
    · cases metadata with
      | nil => exact .build _ hstage (.inr rfl) (.inl rfl)
      | cons entry =>
        by_cases hbad : (!isRequestMetadata entry.key || fails) = true
        · simp only [Stage.build, hbad, if_true]
          exact hfailed
        · simp only [Stage.build, hbad]
          exact .build _ hstage (.inr rfl) (.inr ⟨_, rfl⟩)
  · have hrest : st.build fails s = (s, st) := by
      unfold build
      rw [hsame]
      split
      · rename_i hnone
        cases hnone
      · rename_i hcreate _
        exact absurd hcreate (hnot _ _)
      · rename_i hsome _
        cases hsome
        rfl
    rw [hrest]
    exact .same

theorem Stream.Sound.acts (action : StreamAction) : st.Acts s (st.act s action) := by
  have hguard {p : Prop} [Decidable p] {x : Shared × Stream} (hx : p → st.Acts s x) :
      st.Acts s (if p then x else (s, st)) := by
    split
    · exact hx ‹p›
    · exact .same
  cases action with
  | build fails => exact build_acts hsound fails
  | openStream available putFails notifyFails =>
    refine hguard fun hbuilt => ?_
    unfold openStream
    split
    · exact .destroy false false (by simp [hbuilt])
        (hsound.unaccepted_of (by simp [hbuilt]) (by simp [hbuilt]))
    · exact .accept hbuilt
  | send length fails =>
    refine hguard fun hlive => ?_
    unfold Stream.send
    split
    · exact .same
    · rename_i hroom
      simp only [Bool.or_eq_true, decide_eq_true_eq, not_or] at hroom
      have hle := hsound.outbound_le
      exact .send hlive length (by omega)
  | read outputLength =>
    refine hguard fun hlive => ?_
    unfold readClientStreamData
    split
    · exact .same
    · rename_i item rest hitem
      dsimp only
      split
      · exact .sent hlive.1 item rest hitem
      · exact .offset item rest hitem _
  | queueInbound payloadLength fails =>
    refine hguard fun hlive => ?_
    unfold queueInboundMessage
    split
    · exact .same
    · split
      · exact .same
      · rename_i hroom
        simp only [Bool.or_eq_true, decide_eq_true_eq, not_or] at hroom
        have hle := hsound.inbound_le
        exact .queue hlive.1 _ (by omega)
  | deliver =>
    refine hguard fun hlive => ?_
    unfold Stream.deliver
    split
    · exact .same
    · rename_i hitem
      exact .deliver hlive.1 _ _ hitem
  | terminalize code =>
    refine hguard fun hlive => ?_
    unfold Stream.terminalize
    split
    · exact .same
    · rename_i hopen
      have hopen : st.terminal = false := eq_false_of_ne_true hopen
      rw [if_pos (show st.operationalActive = true by simp [hsound.active, hlive.1, hopen])]
      exact .terminalize hlive.1 hopen code
  | release =>
    refine hguard fun hlive => ?_
    unfold Stream.release
    dsimp only
    split
    · exact .release false st.loopOwned .inl
    · rename_i hloop
      have hended := hsound.ended (eq_false_of_ne_true hloop)
      exact .destroy false st.loopOwned (by simp [hlive.1]) fun _ => by simpa [hlive.1] using hended
  | releaseLoop =>
    refine hguard fun hlive => ?_
    unfold Stream.releaseLoop
    dsimp only
    split
    · exact .release st.appOwned false fun _ => .inr hlive.2.2
    · exact .destroy st.appOwned false (by simp [hlive.1]) fun _ => hlive.2.2

theorem Stream.Sound.advance {allocations : List Allocation}
    {metadata : List Entry} (hstage : st.stage = .building allocations metadata) {stage : Stage}
    (hstored : stage.isStored = true) (hlive : stage ≠ .live)
    (hshape : ∀ allocations metadata, stage = .building allocations metadata →
      allocations = [.path] ∨ allocations = []) :
    Stream.Sound { st with stage := stage, retained := true } := by
  have hst := hsound.unseen (by simp [hstage]) (by simp [hstage])
  have hcharge := hsound.charge (by simp [hstage])
  have hreservations : st.reservations = 1 := by simp [hsound.reservations, hstage]
  have hreleases : st.releases = 0 := by simp [hsound.releases, hstage]
  have hrefused : stage ≠ .refused := by rintro rfl; simp at hstored
  have hfreed : stage ≠ .freed := by rintro rfl; simp at hstored
  refine { hsound with
    reservations := by simp [hreservations, hrefused]
    releases := by simp [hreleases, hfreed]
    retained := ?_
    shape := fun allocations metadata h => .inr (hshape allocations metadata h)
    charge := fun _ => hcharge
    empty := fun _ => ⟨hst.outboundBuffered, hst.inboundBuffered⟩
    active := by simp [hst.active, hlive]
    terminal := fun h => absurd h hfreed
    early := by simp [hst.accepted]
    accepted := fun h => absurd h hlive
    ended := fun h => by simpa [hst.terminal, hstage] using hsound.ended h }
  cases stage with
  | building allocations metadata => obtain rfl | rfl := hshape allocations metadata rfl <;> rfl
  | refused | built | live | done | freed => simp_all

theorem Stream.Sound.buffers (hlive : st.stage = .live)
    (outbound : List OutboundFrame) (inbound : List ℕ)
    (houtbound : (outbound.map OutboundFrame.length).sum ≤ st.limits.maxOutboundBufferSize)
    (hinbound : inbound.sum ≤ st.limits.maxInboundBufferSize) :
    Stream.Sound { st with
      outbound := outbound
      outboundBuffered := (outbound.map OutboundFrame.length).sum
      inbound := inbound
      inboundBuffered := inbound.sum } :=
  { hsound with
    outbound := rfl
    outbound_le := houtbound
    inbound := rfl
    inbound_le := hinbound
    empty := fun h => absurd hlive h }

theorem Stream.Sound.accept (hbuilt : st.stage = .built) :
    Stream.Sound { st with stage := .live, operationalActive := true, accepted := true } := by
  have hst := hsound.unseen (by simp [hbuilt]) (by simp [hbuilt])
  exact
    { hsound with
      reservations := by simpa [hbuilt] using hsound.reservations
      releases := by simpa [hbuilt] using hsound.releases
      retained := by simpa [hbuilt] using hsound.retained
      shape := by simp
      charge := fun _ => hsound.charge (by simp [hbuilt])
      empty := by simp
      active := by simp [hst.terminal]
      counted := by simp [hst.counted, hst.terminal]
      terminal := by simp
      early := by simp
      accepted := by simp
      unaccepted := by simp
      ended := fun h => by simpa [hst.terminal, hbuilt] using hsound.ended h }

variable {x : Shared × Stream}

theorem Stream.Acts.sound (h : st.Acts s x) : x.2.Sound := by
  have houtbound := hsound.outbound
  have hinbound := hsound.inbound
  have houtbound_le := houtbound ▸ hsound.outbound_le
  have hinbound_le := hinbound ▸ hsound.inbound_le
  cases h with
  | same => exact hsound
  | create metadata hstage => exact hsound.advance hstage rfl (by simp) (by simp)
  | build stage hstage hallocations hnext =>
    have hretained : st.retained = true := by
      obtain rfl | rfl := hallocations <;> simp [hsound.retained, hstage]
    have hadvanced : Stream.Sound { st with stage := stage, retained := true } := by
      obtain rfl | ⟨_, rfl⟩ := hnext <;> exact hsound.advance hstage rfl (by simp) (by simp)
    rwa [← hretained] at hadvanced
  | accept hbuilt => exact hsound.accept hbuilt
  | send hlive length hroom =>
    have hnext := hsound.buffers hlive (st.outbound ++ [⟨length, 0⟩]) st.inbound
      (by simp only [List.map_append, List.sum_append, List.map_cons, List.map_nil,
            List.sum_singleton]; omega) hinbound_le
    simpa [← houtbound, ← hinbound] using hnext
  | offset item rest hitem =>
    exact { hsound with outbound := by simpa [hitem] using houtbound }
  | sent hlive item rest hitem =>
    simp only [hitem, List.map_cons, List.sum_cons] at houtbound houtbound_le
    have hnext := hsound.buffers hlive rest st.inbound (by omega) hinbound_le
    have hleft : st.outboundBuffered - item.length = (rest.map OutboundFrame.length).sum := by
      omega
    simpa only [hleft, ← hinbound] using hnext
  | queue hlive size hroom =>
    have hnext := hsound.buffers hlive st.outbound (st.inbound ++ [size]) houtbound_le
      (by simp only [List.sum_append, List.sum_singleton]; omega)
    simpa [← houtbound, ← hinbound] using hnext
  | deliver hlive size rest hitem =>
    simp only [hitem, List.sum_cons] at hinbound hinbound_le
    have hnext := hsound.buffers hlive st.outbound rest houtbound_le (by omega)
    have hleft : st.inboundBuffered - size = rest.sum := by omega
    simpa only [hleft, ← houtbound] using hnext
  | terminalize hlive hopen code =>
    have haccepted := hsound.accepted hlive
    exact
      { hsound with
        active := by simp
        counted := by simp [haccepted]
        terminal := fun _ _ => rfl
        unaccepted := by simp [haccepted]
        ended := fun _ => .inr rfl }
  | release appOwned loopOwned hended =>
    exact { hsound with ended := fun hgone => (hended hgone).elim hsound.ended .inr }
  | destroy appOwned loopOwned hstored hended =>
    have hdestroyed := hsound.destroy (s := s) hstored hended
    exact { hdestroyed with ended := fun _ => .inl rfl }

theorem Stream.Sound.share_mem : st.share ∈ bounded := by
  have hactive : st.operationalActive.toNat ≤ if st.stage.isStored then 1 else 0 := by
    rw [hsound.active]
    by_cases hlive : st.stage = .live
    · simpa [hlive] using Bool.toNat_le _
    · simp [hlive]
  have hbuffered : st.outboundBuffered + st.inboundBuffered ≤
      if st.stage.isStored then st.charge else 0 := by
    by_cases hlive : st.stage = .live
    · have hcharge := hsound.charge (by simp [hlive])
      have houtbound := hsound.outbound_le
      have hinbound := hsound.inbound_le
      simp only [hlive, Stage.isStored_live, if_true]
      omega
    · simp [hsound.empty hlive]
  exact ⟨by simp, by simp, by simpa using hactive, by simpa using hbuffered⟩

end

theorem Balances.buffered_le {n' : Share} (h : Balances unary stream s n) (hn' : n' ∈ bounded)
    (hsame : n' .bufferBytes = n .bufferBytes) :
    n' (.gauge .streamOutboundBytes) + n' (.gauge .streamInboundBytes) ≤ maxU64 := by
  have hle := h.stream.bytes_le
  have hlimit := stream.bytes_le
  obtain ⟨-, -, -, hbuffered⟩ := hn'
  omega

theorem Stream.share_outbound (st : Stream) (outbound : List OutboundFrame) (rest amount : ℕ) :
    { st with outbound := outbound, outboundBuffered := rest + amount }.share =
      { st with outbound := outbound, outboundBuffered := rest }.share +
        one (.gauge .streamOutboundBytes) amount := by
  simp only [share, one_add]
  abel

theorem Stream.share_inbound (st : Stream) (inbound : List ℕ) (rest amount : ℕ) :
    { st with inbound := inbound, inboundBuffered := rest + amount }.share =
      { st with inbound := inbound, inboundBuffered := rest }.share +
        one (.gauge .streamInboundBytes) amount := by
  simp only [share, one_add]
  abel

variable (hsound : st.Sound)

include hsound

theorem Stream.Acts.balances {x : Shared × Stream} (hacts : st.Acts s x) (hn : n ∈ bounded)
    (h : Balances unary stream s (n + st.share)) : Balances unary stream x.1 (n + x.2.share) := by
  have hmem := (hacts.sound hsound).share_mem
  cases hacts with
  | same | offset | release => exact h
  | create metadata hstage =>
    have hretained : st.retained = false := by simp [hsound.retained, hstage]
    have hshare : n + st.share + one .references 1 =
        n + { st with stage := .building [.path] metadata, retained := true }.share := by
      simp only [share, hstage, hretained, Stage.isStored_building, flagShare_true,
        flagShare_false]
      abel
    rw [← hshare]
    exact h.retain
  | build stage hstage _ hnext => obtain rfl | ⟨_, rfl⟩ := hnext <;> simpa [share, hstage] using h
  | accept hbuilt =>
    have hactive : st.operationalActive = false := by simp [hsound.active, hbuilt]
    have hstreams : n .streams + 1 ≤ maxU64 := by
      have hle := h.stream.count_le
      simp only [Pi.add_apply, share_apply, hbuilt, Stage.isStored_built, if_true] at hle
      exact hle.trans stream.count_le
    have hroom : (n + st.share) (.gauge .activeStreams) + 1 ≤ maxU64 := by
      obtain ⟨-, -, hle, -⟩ := hn
      simp only [Pi.add_apply, share_apply, hactive, Bool.toNat_false]
      omega
    have hshare :
        n + { st with stage := .live, operationalActive := true, accepted := true }.share =
        n + st.share + one (.gauge .activeStreams) 1 := by
      simp only [share, hbuilt, hactive, Stage.isStored_live, Stage.isStored_built,
        flagShare_true, flagShare_false]
      abel
    rw [hshare]
    exact h.add hroom
  | send hlive length =>
    have hbound := h.buffered_le (add_mem hn hmem) (by simp)
    rw [share_outbound, ← add_assoc]
    refine h.add ?_
    simp only [Pi.add_apply, share_apply] at hbound ⊢
    omega
  | sent hlive item rest hitem =>
    have hle : item.length ≤ st.outboundBuffered := by
      rw [hsound.outbound, hitem]
      simp
    have hshare := st.share_outbound st.outbound (st.outboundBuffered - item.length) item.length
    rw [Nat.sub_add_cancel hle] at hshare
    rw [hshare, ← add_assoc] at h
    exact h.subtract
  | queue hlive size =>
    have hbound := h.buffered_le (add_mem hn hmem) (by simp)
    rw [share_inbound, ← add_assoc]
    refine h.add ?_
    simp only [Pi.add_apply, share_apply] at hbound ⊢
    omega
  | deliver hlive size rest hitem =>
    have hle : size ≤ st.inboundBuffered := by
      rw [hsound.inbound, hitem]
      simp
    have hshare := st.share_inbound st.inbound (st.inboundBuffered - size) size
    rw [Nat.sub_add_cancel hle] at hshare
    rw [hshare, ← add_assoc] at h
    exact h.subtract
  | terminalize hlive hopen code =>
    have hactive : st.operationalActive = true := by simp [hsound.active, hlive, hopen]
    have hcounted : st.counted = none := by simpa [hopen] using hsound.counted
    have hbefore : n + st.share = n + { st with operationalActive := false }.share +
        one (.gauge .activeStreams) 1 := by
      simp only [share, hactive, flagShare_true, flagShare_false]
      abel
    have hafter : n + { st with
          terminal := true, operationalActive := false, counted := some code }.share =
        n + { st with operationalActive := false }.share + endShare (some code) := by
      simp only [share, hcounted, endShare]
      abel
    rw [hbefore] at h
    rw [hafter]
    exact h.terminal code
  | destroy appOwned loopOwned hstored =>
    have hleft : Balances unary stream s
        (n + { st with appOwned := appOwned, loopOwned := loopOwned }.share) := h
    exact destroy_balances hstored hleft

end Streams

end GrpcLite.Channel
