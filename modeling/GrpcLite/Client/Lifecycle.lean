import GrpcLite.Client.Steps

/-!
# The lifecycle of a client stream

Which callbacks a stream starts, when its two owners let go of it and when its record is freed,
read off the marks in its log.
-/

namespace GrpcLite.Client

open Prog

variable {w w' : World}

/-- The order of the marks and the flags that they determine. -/
structure World.Tracked (w : World) : Prop where
  appReleased : w.stream.appReleased ↔ ∃ event ∈ w.log.marks, event.isReleased
  loopReleased : w.stream.loopOwned = false ↔ .loopReleased ∈ w.log.marks
  once : w.log.marks.countP Mark.isTerminal ≤ 1
  quiet : w.log.marks.Pairwise fun first later =>
    first.isTerminal ∨ first.isReleased → later.isCallback = false
  told : ∀ before after, w.log.marks = before ++ .loopReleased :: after →
    ∃ event ∈ before, event.isTerminal ∨ event.isReleased
  destroyed : w.log.marks.count .destroyed =
    if w.stream.appOwned = false ∧ w.stream.loopOwned = false then 1 else 0

theorem split_append {marks added before after : List Mark} {mark : Mark} (hadded : mark ∉ added)
    (h : marks ++ added = before ++ mark :: after) : ∃ rest, marks = before ++ mark :: rest := by
  rcases List.append_eq_append_iff.mp h with ⟨middle, _, rfl⟩ | ⟨middle, rfl, hafter⟩
  · exact absurd (List.mem_append_right _ List.mem_cons_self) hadded
  · cases middle with
    | nil =>
      obtain rfl : mark :: after = added := hafter
      exact absurd List.mem_cons_self hadded
    | cons first rest =>
      obtain ⟨rfl, _⟩ := List.cons.inj hafter
      exact ⟨rest, rfl⟩

theorem ownerMarks_silent {marks : List Mark} {first : Mark} (owned : Bool)
    (hfirst : first.isCallback = false)
    (h : marks.Pairwise fun first later =>
      first.isTerminal ∨ first.isReleased → later.isCallback = false) :
    (marks ++ first :: if owned then [] else [.destroyed]).Pairwise fun first later =>
      first.isTerminal ∨ first.isReleased → later.isCallback = false := by
  have hsilent : ∀ later ∈ first :: if owned then [] else [.destroyed],
      later.isCallback = false := by
    intro later hmem
    rcases mem_ownerMarks hmem with rfl | rfl
    · exact hfirst
    · rfl
  refine List.pairwise_append.mpr ⟨h, ?_, fun _ _ later hmem _ => hsilent later hmem⟩
  exact List.pairwise_of_forall_mem_list fun _ _ later hmem _ => hsilent later hmem

namespace World.Tracked

theorem callback (h : w.Tracked) (kind : Callback) (hunreleased : w.stream.appReleased = false)
    (hunended : ∀ event ∈ w.log.marks, event.isTerminal = false) :
    (w.marked (.callback kind)).Tracked where
  appReleased := by
    refine h.appReleased.trans ?_
    simp [World.marked, Mark.isReleased]
  loopReleased := by
    refine h.loopReleased.trans ?_
    simp [World.marked]
  once := by
    have hnone : w.log.marks.countP Mark.isTerminal = 0 :=
      List.countP_eq_zero.mpr fun event hmem => by simp [hunended event hmem]
    have hone : [Mark.callback kind].countP Mark.isTerminal ≤ 1 := List.countP_le_length
    simp only [World.marked, List.countP_append, hnone]
    omega
  quiet := by
    refine List.pairwise_append.mpr ⟨h.quiet, List.pairwise_singleton _ _, ?_⟩
    intro event hmem _ _ hover
    rcases hover with hterminal | hreleased
    · cases (hunended event hmem).symm.trans hterminal
    · cases hunreleased.symm.trans (h.appReleased.mpr ⟨event, hmem, hreleased⟩)
  told := by
    intro before after hsplit
    obtain ⟨rest, hmarks⟩ := split_append (by simp) hsplit
    exact h.told before rest hmarks
  destroyed := by
    refine Eq.trans ?_ h.destroyed
    simp [World.marked]

theorem app (h : w.Tracked) (hmove : AppMove w w') : w'.Tracked := by
  cases hmove with
  | release inside howned =>
    have hcount : w.log.marks.count .destroyed = 0 := by rw [h.destroyed, if_neg (by simp [howned])]
    have hreleased : World.Tracked { w with
        stream := { w.stream with appOwned := false, appReleased := true, cancelRequested := true }
        log := { w.log with
          marks := w.log.marks ++
            .released inside :: if w.stream.loopOwned then [] else [.destroyed] } } :=
      { appReleased := ⟨fun _ => ⟨.released inside, by simp, rfl⟩, fun _ => rfl⟩
        loopReleased := h.loopReleased.trans (by cases w.stream.loopOwned <;> simp)
        once := by
          have hnone :
              (Mark.released inside :: if w.stream.loopOwned then [] else [.destroyed]).countP
              Mark.isTerminal = 0 := by
            cases w.stream.loopOwned <;> rfl
          simp only [List.countP_append, hnone]
          exact h.once
        quiet := ownerMarks_silent _ rfl h.quiet
        told := by
          intro before after hsplit
          obtain ⟨rest, hmarks⟩ := split_append (by cases w.stream.loopOwned <;> simp) hsplit
          exact h.told before rest hmarks
        destroyed := by
          simp only [List.count_append, hcount]
          cases w.stream.loopOwned <;> simp }
    exact { hreleased with }
  | _ => exact { h with }

theorem loopRelease (h : w.Tracked) (hbase : w.Base) (howned : w.stream.loopOwned)
    (hterminal : w.stream.terminal) {w' : World} (hmove : w' = { w with
      stream := { w.stream with deadlineEntry := none, wakeQueued := false, loopOwned := false }
      registered := false
      log := { w.log with
        marks := w.log.marks ++
          .loopReleased :: if w.stream.appOwned then [] else [.destroyed] } }) : w'.Tracked := by
  subst hmove
  have hfirst : .loopReleased ∉ w.log.marks := fun hmem =>
    by cases (h.loopReleased.mpr hmem).symm.trans howned
  have htold : ∃ event ∈ w.log.marks, event.isTerminal ∨ event.isReleased := by
    rcases hbase.ended hterminal with ⟨event, hmem, hevent⟩ | hreleased
    · exact ⟨event, hmem, .inl hevent⟩
    · obtain ⟨event, hmem, hevent⟩ := h.appReleased.mp hreleased
      exact ⟨event, hmem, .inr hevent⟩
  have hcount : w.log.marks.count .destroyed = 0 := by rw [h.destroyed, if_neg (by simp [howned])]
  exact
    { appReleased := h.appReleased.trans (by
        cases w.stream.appOwned <;> simp [or_and_right, exists_or, Mark.isReleased])
      loopReleased := ⟨fun _ => by simp, fun _ => rfl⟩
      once := by
        have hnone : (Mark.loopReleased :: if w.stream.appOwned then [] else [.destroyed]).countP
            Mark.isTerminal = 0 := by
          cases w.stream.appOwned <;> rfl
        simp only [List.countP_append, hnone]
        exact h.once
      quiet := ownerMarks_silent _ rfl h.quiet
      told := by
        intro before after hsplit
        obtain ⟨event, hmem, hevent⟩ := htold
        rcases List.append_eq_append_iff.mp hsplit with ⟨middle, rfl, _⟩ | ⟨middle, hmarks, hafter⟩
        · exact ⟨event, List.mem_append_left _ hmem, hevent⟩
        · cases middle with
          | nil => exact ⟨event, by simpa [hmarks] using hmem, hevent⟩
          | cons =>
            obtain ⟨rfl, _⟩ := List.cons.inj hafter
            exact absurd (hmarks ▸ List.mem_append_right _ List.mem_cons_self) hfirst
      destroyed := by
        simp only [List.count_append, hcount]
        cases w.stream.appOwned <;> simp }

end World.Tracked

theorem Move.tracked (hmove : Move w w') (hbase : w.Base) (h : w.Tracked) : w'.Tracked := by
  cases hmove with
  | app hmove => exact h.app hmove
  | notice kind hkind henabled =>
    obtain ⟨_, hunreleased, _, hlive⟩ := enabled_iff.mp henabled
    exact h.callback kind hunreleased (hbase.unended hlive)
  | terminate hlive happ => exact AppClosed.moves (fun _ _ hmove h => h.app hmove) happ { h with }
  | terminateCall outcome hlive happ howned hunreleased =>
    have htracked : World.Tracked _ := AppClosed.moves (fun _ _ hmove h => h.app hmove) happ
      { h with }
    exact htracked.callback _ hunreleased (happ.ending (hbase.ending hlive)).unended
  | loopRelease howned hterminal => exact h.loopRelease hbase howned hterminal rfl
  | close errorCode hmapped happ =>
    exact { AppClosed.moves (fun _ _ hmove h => World.Tracked.app h hmove) happ { h with } with }
  | _ => exact { h with }

theorem tracked_invariant : Invariant World.Tracked where
  awake h := { h with }
  move hmove hbase h := by
    cases hmove with
    | outer hmove => exact hmove.tracked hbase h
    | message payload compression henabled =>
      obtain ⟨_, hunreleased, _, hlive⟩ := enabled_iff.mp henabled
      exact h.callback _ hunreleased (hbase.unended hlive)
    | flow => exact { h with }

theorem World.IsOpened.tracked (h : w.IsOpened) : w.Tracked where
  appReleased := by rw [h.stream, h.log]; simp [ClientStreamState.init]
  loopReleased := by rw [h.stream, h.log]; simp [ClientStreamState.init]
  once := by rw [h.log]; exact Nat.zero_le 1
  quiet := by rw [h.log]; exact .nil
  told := by rw [h.log]; exact fun before after hsplit => absurd hsplit (by simp)
  destroyed := by rw [h.stream, h.log]; rfl

/-- What an application can rely on.  The terminal callback starts at most once, and once before
the loop lets go of the stream unless the application did so before; nothing starts after it or
after a release; and the record is freed once, when nobody owns it any more. -/
structure World.Lifecycle (w : World) : Prop where
  once : w.log.marks.countP Mark.isTerminal ≤ 1
  told : ∀ before after, w.log.marks = before ++ .loopReleased :: after →
    before.countP Mark.isTerminal = 1 ∨ ∃ event ∈ before, event.isReleased
  loopOwned : w.stream.loopOwned = false ↔ .loopReleased ∈ w.log.marks
  appOwned : w.stream.appOwned = false ↔ ∃ event ∈ w.log.marks, event.isReleased
  quiet : w.log.marks.Pairwise fun first later =>
    first.isTerminal ∨ first.isReleased → later.isCallback = false
  destroyed : w.log.marks.count .destroyed =
    if w.stream.appOwned = false ∧ w.stream.loopOwned = false then 1 else 0

theorem World.Tracked.lifecycle (h : w.Tracked) (hbase : w.Base) : w.Lifecycle where
  once := h.once
  told before after hsplit := by
    obtain ⟨event, hmem, hevent⟩ := h.told before after hsplit
    rcases hevent with hterminal | hreleased
    · left
      have hsome : 0 < before.countP Mark.isTerminal :=
        List.countP_pos_iff.mpr ⟨event, hmem, hterminal⟩
      have hall : before.countP Mark.isTerminal ≤ w.log.marks.countP Mark.isTerminal := by
        rw [hsplit, List.countP_append]
        exact Nat.le_add_right _ _
      have := h.once
      omega
    · exact .inr ⟨event, hmem, hreleased⟩
  loopOwned := h.loopReleased
  appOwned := by
    rw [← h.appReleased, hbase.owned]
    cases w.stream.appOwned <;> simp
  quiet := h.quiet
  destroyed := h.destroyed

/-- Every run of every stream keeps to the lifecycle. -/
theorem lifecycle_always (hw : w.IsOpened) (events : List Event) :
    (Run.final step w events).Lifecycle :=
  have hstable : (Run.final step w events).Stable :=
    Run.invariant_always (fun _ event h => h.step event) events hw.stable
  (tracked_invariant.run hw.stable events hw.tracked).lifecycle hstable.base

/-- A stream whose application releases it in the callback that reports its headers. -/
def releasedWorld : World where
  stream := .init {} {} .identity none
  env := { callbacks := [{ actions := [.release] }] }
  gzip := { compress := id, decompress := fun payload _ => .ok payload }

theorem lifecycle_always_released :
    (Run.final step releasedWorld (answer [0, 0, 0, 0, 0])).log.marks =
        [.callback (.headers []), .released true, .loopReleased, .destroyed] ∧
      (Run.final step releasedWorld (answer [0, 0, 0, 0, 0])).Lifecycle :=
  ⟨by decide +kernel, lifecycle_always ⟨rfl, rfl, rfl, rfl, rfl, rfl, rfl⟩ _⟩

def Control.Halted (c : Control) : Prop := c.stopping → c.loopOwned = false

theorem World.Steps.halted (hsettled : w.control.Settled) (hsteps : w.Steps event c)
    (h : w.control.Halted) : c.Halted := by
  have hstopped : ∀ {c : Control}, c.registered = c.loopOwned → c.Halted → c.stopped.Halted := by
    intro c howned h
    unfold Control.stopped Control.Halted
    split_ifs <;> simp_all [Control.Halted, Control.gaveUp]
  have hfailed : ∀ {c : Control}, c.registered = c.loopOwned → c.Halted → c.failed.Halted := by
    intro c howned h
    unfold Control.failed
    split_ifs
    · exact h
    · exact hstopped howned h
    · exact fun _ => rfl
    · exact h
  have howned := hsettled.owned
  cases hsteps with
  | started _ _ _ _ _ hc | commands _ _ _ _ hc | frame _ _ _ hc | expire _ hc | goAway _ _ hc =>
    cases hc <;> first | exact h | exact fun _ => rfl
  | startFailed _ _ _ _ _ hc | commandsFailed _ _ _ _ hc | frameFailed _ _ _ hc =>
    cases hc <;> exact hfailed howned h
  | expireFailed | stop => exact hstopped howned h
  | goAwayFailed | transportFailure => exact hfailed howned h
  | _ => first | exact h | exact fun _ => rfl

/-- When its channel has stopped, the loop has let go of the stream, no table of the channel has it,
and its application was told of the end or has released the stream. -/
theorem stop_ends_stream (hw : w.IsOpened) (events : List Event)
    (hstopping : (Run.final step w events).stopping) :
    let w' := Run.final step w events
    (w'.stream.loopOwned = false ∧ w'.registered = false ∧ w'.mapped = false) ∧
      (w'.log.marks.countP Mark.isTerminal = 1 ∨ ∃ event ∈ w'.log.marks, event.isReleased) := by
  intro w'
  have hstep : ∀ (w : World) (event : Event), w.Stable ∧ w.control.Halted →
      (step w event).Stable ∧ (step w event).control.Halted := by
    intro w event h
    obtain ⟨c, w₁, hsteps, -, hat⟩ := step_stepped event h.1.base h.1.settled
    exact ⟨h.1.step event, hat.control ▸ hsteps.halted h.1.settled h.2⟩
  obtain ⟨hstable, hhalted⟩ := Run.invariant_always hstep events
    ⟨hw.stable, fun hstop => by cases hw.running.symm.trans hstop⟩
  have hdisowned : w'.stream.loopOwned = false := hhalted hstopping
  have htracked : w'.Tracked := tracked_invariant.run hw.stable events hw.tracked
  have hunmapped := (hstable.settled.gone hdisowned).2
  refine ⟨⟨hdisowned, hstable.settled.owned.trans hdisowned, hunmapped⟩, ?_⟩
  obtain ⟨before, after, hmarks⟩ := List.append_of_mem (htracked.loopReleased.mp hdisowned)
  obtain ⟨event, hmem, hevent⟩ := htracked.told before after hmarks
  have hmem : event ∈ w'.log.marks := hmarks ▸ List.mem_append_left _ hmem
  refine hevent.imp (fun hterminal => ?_) fun hreleased => ⟨event, hmem, hreleased⟩
  exact le_antisymm htracked.once (List.countP_pos_iff.mpr ⟨event, hmem, hterminal⟩)

theorem stop_ends_stream_released :
    (Run.final step releasedWorld [.wake 0 1, .stop "closed"]).registered = false :=
  (stop_ends_stream (w := releasedWorld) ⟨rfl, rfl, rfl, rfl, rfl, rfl, rfl⟩
    [.wake 0 1, .stop "closed"] (by decide +kernel)).1.2.1

end GrpcLite.Client
