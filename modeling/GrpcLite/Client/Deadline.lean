import GrpcLite.Client.Steps

/-!
# The deadline of a client stream

A stream with a deadline keeps an entry in the deadline heap until its end or its reset is under
way, unless its transport closes before the application has taken what was received: the close
removes the entry and leaves the stream waiting.
-/

namespace GrpcLite.Client

open Prog

variable {w : World} {c : Control}

theorem AnyMove.deadline {w' : World} (hmove : AnyMove w w') :
    w'.stream.deadline = w.stream.deadline := by
  cases hmove with
  | outer hmove =>
    cases hmove with
    | app hmove => exact congrArg Control.deadline hmove.control
    | terminate _ happ | terminateCall _ _ happ | close _ _ happ =>
      exact congrArg Control.deadline happ.control
    | _ => rfl
  | _ => rfl

namespace Control

theorem stopped_kept (howned : c.registered = c.loopOwned) (hkept : c.stopped.loopOwned) :
    c.loopOwned ∧ c.stopped.closed = c.closed := by
  unfold stopped at hkept ⊢
  split
  · rename_i hstopping
    rw [if_pos hstopping] at hkept
    exact ⟨hkept, rfl⟩
  rename_i hrunning
  rw [if_neg hrunning] at hkept
  split at hkept
  · exact Bool.noConfusion hkept
  split at hkept
  · exact Bool.noConfusion hkept
  · rename_i hunregistered
    exact absurd (howned.trans hkept) hunregistered

theorem failed_kept (howned : c.registered = c.loopOwned) (hkept : c.failed.loopOwned) :
    c.loopOwned ∧ c.failed.closed = c.closed := by
  unfold failed at hkept ⊢
  split
  · rename_i hover
    rw [if_pos hover] at hkept
    exact ⟨hkept, rfl⟩
  rename_i hup
  rw [if_neg hup] at hkept
  split
  · rename_i hfinal
    rw [if_pos hfinal] at hkept
    exact stopped_kept howned hkept
  rename_i hagain
  rw [if_neg hagain] at hkept
  split at hkept
  · exact Bool.noConfusion hkept
  · rename_i hunregistered
    exact absurd (howned.trans hkept) hunregistered

end Control

/-- Only a close that leaves the stream waiting makes a closed stream that is still owned. -/
theorem World.Steps.closedOwned {event : Event} (hsettled : w.control.Settled)
    (hsteps : w.Steps event c) (hclosed : c.closed) (howned : c.loopOwned) :
    (w.control.closed ∧ w.control.loopOwned) ∨
      ∃ errorCode now, event = .streamClose errorCode now ∧ w.control.mapped ∧
        w.Waiting errorCode now := by
  cases hsteps with
  | app | asleep | unmapped | goAwayIgnored | connectionIgnored | connection =>
    exact .inl ⟨hclosed, howned⟩
  | unstarted | closedEnded => exact Bool.noConfusion howned
  | started now id howned' hnew hactive hcommands | commands now id howned' hsubmitted hcommands =>
    cases hcommands with
    | gaveUp => exact Bool.noConfusion howned
    | _ => exact .inl ⟨hclosed, howned⟩
  | startFailed now id howned' hnew hactive hcommands
  | commandsFailed now id howned' hsubmitted hcommands =>
    have hkept := Control.failed_kept (by cases hcommands <;> exact hsettled.owned) howned
    rw [hkept.2] at hclosed
    cases hcommands <;> exact .inl ⟨hclosed, hkept.1⟩
  | frame event hframe hmapped hsettles => cases hsettles <;> exact .inl ⟨hclosed, howned⟩
  | frameFailed event hframe hmapped hbreaks =>
    have hkept := Control.failed_kept (by cases hbreaks <;> exact hsettled.owned) howned
    rw [hkept.2] at hclosed
    cases hbreaks <;> exact .inl ⟨hclosed, hkept.1⟩
  | closed errorCode now hmapped hwaiting => exact .inr ⟨errorCode, now, rfl, hmapped, hwaiting⟩
  | expire now hexpires =>
    cases hexpires with
    | gaveUp => exact Bool.noConfusion howned
    | _ => exact .inl ⟨hclosed, howned⟩
  | expireFailed =>
    have hkept := Control.stopped_kept (by exact hsettled.owned) howned
    exact .inl ⟨hkept.2.symm.trans hclosed, hkept.1⟩
  | goAway lastStreamId hactive hgoesAway =>
    cases hgoesAway with
    | gaveUp => exact Bool.noConfusion howned
    | _ => exact .inl ⟨hclosed, howned⟩
  | goAwayFailed =>
    have hkept := Control.failed_kept (by exact hsettled.owned) howned
    exact .inl ⟨hkept.2.symm.trans hclosed, hkept.1⟩
  | transportFailure =>
    have hkept := Control.failed_kept hsettled.owned howned
    exact .inl ⟨hkept.2.symm.trans hclosed, hkept.1⟩
  | stop =>
    have hkept := Control.stopped_kept hsettled.owned howned
    exact .inl ⟨hkept.2.symm.trans hclosed, hkept.1⟩

/-- The stream's deadline is in the heap for as long as it can matter. -/
def World.Enforced (w : World) : Prop :=
  ∀ deadline, w.stream.deadline = some deadline → w.stream.loopOwned →
    w.stream.terminal = false → w.log.woken → w.stream.rstSubmitted = false →
    w.stream.deadlineEntry = some deadline

/-- The close that takes the deadline of a waiting stream out of the heap. -/
def World.LosesDeadline (w : World) : Event → Prop
  | .streamClose errorCode now => w.mapped ∧ w.stream.deadline.isSome ∧ w.Waiting errorCode now
  | _ => False

/-- A stream that waits for its application has no deadline. -/
structure World.Timed (w : World) : Prop where
  stable : w.Stable
  untimed : w.stream.transportClosed → w.stream.loopOwned → w.stream.deadline = none

theorem World.Timed.enforced (h : w.Timed) : w.Enforced := by
  intro deadline hdeadline howned hlive hwoken hrst
  have hopened : w.stream.transportClosed = false := eq_false_of_ne_true fun hclosed =>
    by cases hdeadline.symm.trans (h.untimed hclosed howned)
  exact (h.stable.settled.due howned hlive hopened hwoken hrst).trans hdeadline

theorem World.Timed.stepped {event : Event} (h : w.Timed) (hkeeps : ¬w.LosesDeadline event) :
    (step w event).Timed where
  stable := h.stable.step event
  untimed hclosed howned := by
    obtain ⟨c, w₁, hsteps, hbegins, hat⟩ := step_stepped event h.stable.base h.stable.settled
    have hsame : w₁.stream.deadline = w.stream.deadline := by cases hbegins <;> rfl
    have hdeadline : (step w event).stream.deadline = w.stream.deadline :=
      hat.moves.rec hsame fun _ hmove ih => hmove.deadline.trans ih
    obtain rfl := hat.control
    rw [hdeadline]
    rcases hsteps.closedOwned h.stable.settled hclosed howned with ⟨hclosed, howned⟩ | hcloses
    · exact h.untimed hclosed howned
    · obtain ⟨errorCode, now, rfl, hmapped, hwaiting⟩ := hcloses
      refine Option.not_isSome_iff_eq_none.mp fun hsome => hkeeps ⟨hmapped, hsome, hwaiting⟩

theorem World.Timed.expires (h : w.Timed) {deadline now : ℕ}
    (hdeadline : w.stream.deadline = some deadline) (hwoken : w.log.woken) (hdue : deadline ≤ now) :
    (step w (.expire now)).stream.terminal ∨ (step w (.expire now)).stream.rstSubmitted := by
  obtain ⟨c, _, hsteps, _, hat⟩ := step_stepped (.expire now) h.stable.base h.stable.settled
  have hcontrol := hat.control
  show (step w (.expire now)).control.terminal ∨ (step w (.expire now)).control.rst
  rw [hcontrol]
  have hsettled := h.stable.settled
  -- what is neither over nor reset has its deadline in the heap
  have hentry : w.control.terminal = false → w.control.rst = false →
      w.control.loopOwned ∧ w.control.entry = some deadline := by
    intro hlive hrst
    have howned : w.control.loopOwned := by
      by_contra hdisowned
      cases hlive.symm.trans (hsettled.gone (eq_false_of_ne_true hdisowned)).1
    exact ⟨howned, h.enforced deadline hdeadline howned hlive hwoken hrst⟩
  cases hsteps with
  | unmapped _ _ hframe => exact hframe.elim nofun fun ⟨_, _, heq⟩ => nomatch heq
  | frame _ hframe | frameFailed _ hframe => exact Bool.noConfusion hframe
  | expireFailed _ hmapped =>
    left
    have hrunning := (hsettled.mapped hmapped).2.2.2.1
    simp [Control.stopped, Control.gaveUp, hrunning, hmapped]
  | expire _ hexpires =>
    cases hexpires with
    | gaveUp => exact .inl rfl
    | reset => exact .inr rfl
    | pending hlater =>
      by_contra hneither
      rw [not_or, Bool.not_eq_true, Bool.not_eq_true] at hneither
      have := hlater deadline (hentry hneither.1 hneither.2).2
      omega
    | stale expiry hsome hstale =>
      by_contra hneither
      rw [not_or, Bool.not_eq_true, Bool.not_eq_true] at hneither
      obtain ⟨howned, hin⟩ := hentry hneither.1 hneither.2
      obtain rfl : deadline = expiry := Option.some.inj (hin.symm.trans hsome)
      have hunexpired : w.control.expired = false := eq_false_of_ne_true fun hexpired =>
        by cases hneither.2.symm.trans (hsettled.expired howned hexpired)
      exact hstale ⟨hdeadline, hunexpired, hneither.1, howned⟩

/-- In every run in which no close takes the deadline of a waiting stream away, the deadline is
enforced. -/
theorem deadline_enforced (hw : w.IsOpened) (events : List Event)
    (hkeeps : Run.Meets step (fun w event => ¬w.LosesDeadline event) w events) :
    (Run.final step w events).Enforced ∧
      ∀ deadline now, (Run.final step w events).stream.deadline = some deadline →
        (Run.final step w events).log.woken → deadline ≤ now →
        (step (Run.final step w events) (.expire now)).stream.terminal ∨
          (step (Run.final step w events) (.expire now)).stream.rstSubmitted := by
  have hopened : w.stream.transportClosed = false := congrArg Control.closed hw.control
  have htimed : (Run.final step w events).Timed :=
    Run.invariant (fun _ _ h hkeeps => h.stepped hkeeps)
      ⟨hw.stable, fun hclosed => by cases hopened.symm.trans hclosed⟩ hkeeps
  exact ⟨htimed.enforced, fun _ _ hdeadline hwoken hdue => htimed.expires hdeadline hwoken hdue⟩

/-- An open stream whose application pauses at every message. -/
def pausingWorld (deadline : ℕ) : World where
  stream := .init {} {} .identity (some deadline)
  env := { otherwise := { action := .pause } }
  gzip := { compress := id, decompress := fun payload _ => .ok payload }

theorem pausingWorld_opened (deadline : ℕ) : (pausingWorld deadline).IsOpened :=
  ⟨rfl, rfl, rfl, rfl, rfl, rfl, rfl⟩

/-- An empty message arrives, the application pauses and the server ends the stream: the deadline
100 passes without effect. -/
theorem deadline_not_enforced :
    let w := Run.final step (pausingWorld 100) (answer [0, 0, 0, 0, 0])
    ¬w.Enforced ∧ (step w (.expire 200)).stream.terminal = false ∧
      (step w (.expire 200)).stream.rstSubmitted = false := by
  refine ⟨fun henforced => ?_, by decide +kernel, by decide +kernel⟩
  exact absurd (henforced 100 rfl (by decide +kernel) (by decide +kernel) (by decide +kernel)
    (by decide +kernel)) (by decide +kernel)

theorem deadline_enforced_reset :
    let w := Run.final step (pausingWorld 100) [.wake 0 1, .read 100]
    w.Enforced ∧
      ((step w (.expire 200)).stream.terminal ∨ (step w (.expire 200)).stream.rstSubmitted) := by
  have h := deadline_enforced (pausingWorld_opened 100) [.wake 0 1, .read 100] ⟨id, id, trivial⟩
  exact ⟨h.1, h.2 100 200 (by decide) (by decide) (by decide)⟩

end GrpcLite.Client
