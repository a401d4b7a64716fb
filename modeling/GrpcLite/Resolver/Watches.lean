import GrpcLite.Resolver.Adapter
import Mathlib.Data.List.Nodup

/-!
# The watches of the adapter

At the end of every event each wanted direction has a poll or a cancellation in the loop, the table
has exactly the live watches, and every watch that is gone was destroyed once, out of use.
-/

namespace GrpcLite.Resolver

open Prog

@[simp] theorem side_setSide_same (watch : Watch) (side : Side) (d : Direction) :
    (watch.setSide side d).side d = side := by cases d <;> rfl

theorem side_setSide_other (watch : Watch) (side : Side) {d e : Direction} (h : e ≠ d) :
    (watch.setSide side d).side e = watch.side e := by
  cases d <;> cases e <;> first
    | rfl
    | exact absurd rfl h

@[simp] theorem fd_setSide (watch : Watch) (side : Side) (d : Direction) :
    (watch.setSide side d).fd = watch.fd := by cases d <;> rfl

@[simp] theorem callbackActive_setSide (watch : Watch) (side : Side) (d : Direction) :
    (watch.setSide side d).callbackActive = watch.callbackActive := by cases d <;> rfl

theorem want_setSide (watch : Watch) (side : Side) (d e : Direction)
    (hwant : side.want = (watch.side d).want) :
    ((watch.setSide side d).side e).want = (watch.side e).want := by
  by_cases he : e = d
  · subst he
    rw [side_setSide_same, hwant]
  · rw [side_setSide_other _ _ he]

/-! ## The invariant between callbacks -/

/-- The completions that the flags of the live watches stand for. -/
def expected (memory : ℕ → Option Watch) : Completion → Bool
  | .poll id d => (memory id).any fun watch => (watch.side d).active
  | .cancel id d => (memory id).any fun watch => (watch.side d).cancelActive

def Watch.wants (watch : Watch) : Bool × Bool := (watch.read.want, watch.write.want)

theorem wants_setSide {watch : Watch} {side : Side} {d : Direction}
    (hwant : side.want = (watch.side d).want) : (watch.setSide side d).wants = watch.wants :=
  Prod.ext (want_setSide watch side d .read hwant) (want_setSide watch side d .write hwant)

structure Core (w : Watches) : Prop where
  table : ∀ fd id, w.watches fd = some id ↔ ∃ watch, w.memory id = some watch ∧ watch.fd = fd
  fresh : ∀ id, w.allocated ≤ id → w.memory id = none
  gone : ∀ id, id ∈ w.destroyed ↔ id < w.allocated ∧ w.memory id = none
  once : w.destroyed.Nodup
  loop : w.loop = expected w.memory
  wants : ∀ id watch, w.memory id = some watch → w.asked watch.fd = watch.wants
  unasked : ∀ fd, w.watches fd = none → w.asked fd = (false, false)

section Core

variable {w : Watches} {id : ℕ} {watch : Watch}

variable {E : Fault → Watches → Prop} {watch' : Watch} {memory : ℕ → Option Watch}

theorem getWatch_wp {Q : Watch → Watches → Prop} (hwatch : w.memory id = some watch)
    (h : Q watch w) :
    wp (getWatch id) Q E w := by
  simp only [getWatch, wp_bind, wp_get, hwatch]
  exact h

theorem setWatch_wp {Q : Unit → Watches → Prop} (hwatch : w.memory id = some watch)
    (h : Q () { w with memory := Function.update w.memory id (some watch') }) :
    wp (setWatch id watch') Q E w := by
  simp only [setWatch, wp_bind]
  exact getWatch_wp hwatch h

theorem Core.listed (h : Core w) (hwatch : w.memory id = some watch) :
    w.watches watch.fd = some id := (h.table _ _).mpr ⟨watch, hwatch, rfl⟩

theorem Core.set (h : Core w) (hwatch : w.memory id = some watch) (hfd : watch'.fd = watch.fd)
    {loop : Completion → Bool} (hloop : loop = expected (Function.update w.memory id (some watch')))
    {asked : Fd → Bool × Bool} (hasked : asked = Function.update w.asked watch.fd watch'.wants) :
    Core { w with
      memory := Function.update w.memory id (some watch'), loop := loop, asked := asked } where
  table := by grind [Function.update_apply, h.table]
  fresh := by grind [Function.update_apply, h.fresh]
  gone := by grind [Function.update_apply, h.gone]
  once := h.once
  loop := hloop
  wants other found hfound := by
    subst hasked
    have hid := h.listed hwatch
    have hother : w.memory other = some found → w.watches found.fd = some other := h.listed
    grind [Function.update_apply, h.wants]
  unasked fd hnone := by
    subst hasked
    have hid := h.listed hwatch
    grind [Function.update_apply, h.unasked]

theorem Core.asked_eq (h : Core w) (hwatch : w.memory id = some watch)
    (hwants : watch'.wants = watch.wants) :
    w.asked = Function.update w.asked watch.fd watch'.wants := by
  rw [hwants, ← h.wants id watch hwatch, Function.update_eq_self]

theorem expected_update {value : Option Watch} {loop : Completion → Bool}
    (hothers : ∀ other ≠ id, ∀ d, loop (.poll other d) = expected memory (.poll other d) ∧
      loop (.cancel other d) = expected memory (.cancel other d))
    (hpoll : ∀ d, loop (.poll id d) = value.any fun watch => (watch.side d).active)
    (hcancel : ∀ d, loop (.cancel id d) = value.any fun watch => (watch.side d).cancelActive) :
    expected (Function.update memory id value) = loop := by
  funext c
  cases c with
  | poll other d =>
    by_cases hother : other = id
    · subst hother
      simp [expected, hpoll]
    · rw [(hothers other hother d).1]
      simp [expected, hother]
  | cancel other d =>
    by_cases hother : other = id
    · subst hother
      simp [expected, hcancel]
    · rw [(hothers other hother d).2]
      simp [expected, hother]

section

variable (hwatch : memory id = some watch)

include hwatch

theorem expected_poll (side : Side) {d : Direction}
    (hcancel : side.cancelActive = (watch.side d).cancelActive) :
    expected (Function.update memory id (some (watch.setSide side d))) =
      Function.update (expected memory) (.poll id d) side.active := by
  refine expected_update (fun other hother e => by simp [hother]) (fun e => ?_) fun e => ?_
  all_goals
    by_cases he : e = d
    · subst he
      simp [expected, hwatch, hcancel]
    · simp [expected, he, side_setSide_other _ _ he, hwatch]

theorem expected_cancel (side : Side) {d : Direction}
    (hactive : side.active = (watch.side d).active) :
    expected (Function.update memory id (some (watch.setSide side d))) =
      Function.update (expected memory) (.cancel id d) side.cancelActive := by
  refine expected_update (fun other hother e => by simp [hother]) (fun e => ?_) fun e => ?_
  all_goals
    by_cases he : e = d
    · subst he
      simp [expected, hwatch, hactive]
    · simp [expected, he, side_setSide_other _ _ he, hwatch]

theorem expected_same (h : ∀ d, (watch'.side d).active = (watch.side d).active ∧
      (watch'.side d).cancelActive = (watch.side d).cancelActive) :
    expected (Function.update memory id (some watch')) = expected memory :=
  expected_update (fun _ _ _ => ⟨rfl, rfl⟩) (fun d => by simp [expected, hwatch, h])
    fun d => by simp [expected, hwatch, h]

theorem expected_idle (h : watch.read.active = false ∧ watch.write.active = false ∧
      watch.read.cancelActive = false ∧ watch.write.cancelActive = false) :
    expected (Function.update memory id none) = expected memory := by
  refine expected_update (fun _ _ _ => ⟨rfl, rfl⟩) (fun d => ?_) fun d => ?_
  all_goals cases d <;> simp [expected, hwatch, Watch.side, h]

end

theorem Core.poll_eq (h : Core w) (hwatch : w.memory id = some watch) (d : Direction) :
    w.loop (.poll id d) = (watch.side d).active := by
  rw [h.loop]
  simp [expected, hwatch]

theorem Core.cancel_eq (h : Core w) (hwatch : w.memory id = some watch) (d : Direction) :
    w.loop (.cancel id d) = (watch.side d).cancelActive := by
  rw [h.loop]
  simp [expected, hwatch]

theorem submit_wp {c : Completion} {Q : Unit → Watches → Prop} (hdead : w.loop c = false)
    (h : Q () { w with loop := Function.update w.loop c true }) : wp (submit c) Q E w := by
  simp only [submit, wp_bind, wp_get, wp_ensure]
  refine ⟨fun _ => h, fun hactive => ?_⟩
  simp [hdead] at hactive

def Side.updated (side : Side) (destroying : Bool) : Side :=
  if side.want && !destroying && !side.active && !side.cancelActive then
    { side with active := true }
  else if !side.want && side.active && !side.cancelActive then { side with cancelActive := true }
  else side

def Watch.updated (watch : Watch) (destroying : Bool) (d : Direction) : Watch :=
  watch.setSide ((watch.side d).updated destroying) d

theorem setSide_side (watch : Watch) (d : Direction) : watch.setSide (watch.side d) d = watch := by
  cases d <;> rfl

theorem updateSide_spec (h : Core w) (hwatch : w.memory id = some watch) (d : Direction) :
    wp (updateSide id d) (fun _ w' => Core w' ∧ w' = { w with
      memory := Function.update w.memory id (some (watch.updated w.destroying d))
      loop := w'.loop }) never w := by
  unfold updateSide
  simp only [wp_bind, wp_get]
  refine getWatch_wp hwatch ?_
  split
  · rename_i harm
    have hupdated : (watch.side d).updated w.destroying = { watch.side d with active := true } := by
      simp only [Side.updated, harm, if_true]
    simp only [Bool.and_eq_true, Bool.not_eq_true'] at harm
    simp only [wp_bind, Watch.updated, hupdated]
    refine setWatch_wp hwatch (submit_wp ((h.poll_eq hwatch d).trans harm.1.2) ⟨?_, rfl⟩)
    refine h.set hwatch (fd_setSide _ _ _) ?_ (h.asked_eq hwatch (wants_setSide rfl))
    rw [expected_poll hwatch { watch.side d with active := true } rfl, ← h.loop]
  split
  · rename_i hskip hdisarm
    have hupdated : (watch.side d).updated w.destroying =
        { watch.side d with cancelActive := true } := by
      simp only [Side.updated, hskip, hdisarm, if_true, Bool.false_eq_true, if_false]
    simp only [Bool.and_eq_true, Bool.not_eq_true'] at hdisarm
    simp only [wp_bind, Watch.updated, hupdated]
    refine setWatch_wp hwatch (submit_wp ((h.cancel_eq hwatch d).trans hdisarm.2) ⟨?_, rfl⟩)
    refine h.set hwatch (fd_setSide _ _ _) ?_ (h.asked_eq hwatch (wants_setSide rfl))
    rw [expected_cancel hwatch { watch.side d with cancelActive := true } rfl, ← h.loop]
  · rename_i hskip hkeep
    have hupdated : (watch.side d).updated w.destroying = watch.side d := by
      simp only [Side.updated, hskip, hkeep, Bool.false_eq_true, if_false]
    simp only [Watch.updated, hupdated, setSide_side, ← hwatch, Function.update_eq_self]
    exact ⟨h, rfl⟩

theorem Core.destroy (h : Core w) (hwatch : w.memory id = some watch)
    (hunwanted : watch.wants = (false, false)) :
    Core { w with
      watches := Function.update w.watches watch.fd none
      memory := Function.update w.memory id none
      destroyed := w.destroyed ++ [id]
      loop := expected (Function.update w.memory id none) } where
  table := by grind [Function.update_apply, h.table, h.listed hwatch]
  fresh := by grind [Function.update_apply, h.fresh]
  gone := by grind [Function.update_apply, h.gone, h.fresh]
  once := by grind [h.once, h.gone]
  loop := rfl
  wants := by grind [Function.update_apply, h.wants]
  unasked := by grind [Function.update_apply, h.unasked, h.wants]

theorem hasCompletion_eq (h : Core w) (hwatch : w.memory id = some watch) :
    hasCompletion w id = (watch.read.active || watch.write.active || watch.read.cancelActive ||
      watch.write.cancelActive) := by
  unfold hasCompletion
  rw [h.poll_eq hwatch, h.poll_eq hwatch, h.cancel_eq hwatch, h.cancel_eq hwatch]
  rfl

theorem maybeRetireWatch_spec (h : Core w) (hwatch : w.memory id = some watch) :
    wp (maybeRetireWatch id) (fun _ w' => Core w' ∧ w'.destroying = w.destroying ∧
      w'.memory = if watch.idle then Function.update w.memory id none else w.memory) never w := by
  have htabled : w.watches watch.fd = some id := h.listed hwatch
  unfold maybeRetireWatch
  simp only [wp_bind]
  refine getWatch_wp hwatch ?_
  cases hidle : watch.idle with
  | false => exact ⟨h, rfl, rfl⟩
  | true =>
    simp only [if_true, wp_bind, wp_get, htabled, wp_modify, wp_ensure]
    refine ⟨fun _ => ?_, fun hne => absurd trivial hne⟩
    unfold Resolver.destroy
    simp only [wp_bind]
    refine getWatch_wp hwatch ?_
    have hcompletion := hasCompletion_eq h hwatch
    have hflags : watch.read.active = false ∧ watch.write.active = false ∧
        watch.read.cancelActive = false ∧ watch.write.cancelActive = false := by
      simp only [Watch.idle, Side.idle, Bool.and_eq_true, Bool.not_eq_true'] at hidle
      exact ⟨hidle.1.1.1.2, hidle.1.2.1.2, hidle.1.1.2, hidle.1.2.2⟩
    simp only [wp_get, wp_ensure, wp_modify, hidle, true_implies, not_true, false_implies, and_true]
    refine ⟨fun _ => ?_, fun hbusy => absurd (hcompletion.trans ?_) hbusy⟩
    · have hloop : w.loop = expected (Function.update w.memory id none) := by
        rw [h.loop, expected_idle hwatch hflags]
      have hunwanted : watch.wants = (false, false) := by
        simp only [Watch.idle, Side.idle, Bool.and_eq_true, Bool.not_eq_true'] at hidle
        exact Prod.ext hidle.1.1.1.1 hidle.1.2.1.1
      have hdestroyed := h.destroy hwatch hunwanted
      rw [← hloop] at hdestroyed
      exact hdestroyed
    · simp [hflags]

def Watch.refreshed (watch : Watch) (destroying : Bool) : Watch :=
  { watch with read := watch.read.updated destroying, write := watch.write.updated destroying }

def Watch.kept (watch : Watch) : Option Watch := if watch.idle then none else some watch

theorem kept_eq_some {found : Watch} (h : watch.kept = some found) :
    found = watch ∧ watch.idle = false := by
  unfold Watch.kept at h
  split at h
  · cases h
  · rename_i hused
    exact ⟨(Option.some.inj h).symm, by simpa using hused⟩

theorem updateWatch_spec (h : Core w) (hwatch : w.memory id = some watch) :
    wp (updateWatch id) (fun _ w' => Core w' ∧ w'.destroying = w.destroying ∧
      w'.memory = Function.update w.memory id (watch.refreshed w.destroying).kept) never w := by
  unfold updateWatch
  simp only [wp_bind]
  refine wp_ends (updateSide_spec h hwatch .read) ?_
  rintro _ w₁ ⟨hcore₁, hw₁⟩
  have hwatch₁ : w₁.memory id = some (watch.updated w.destroying .read) := by
    rw [hw₁]
    simp
  refine wp_ends (updateSide_spec hcore₁ hwatch₁ .write) ?_
  rintro _ w₂ ⟨hcore₂, hw₂⟩
  have hdestroying : w₂.destroying = w.destroying := by rw [hw₂, hw₁]
  have hmemory : w₂.memory = Function.update w.memory id (some (watch.refreshed w.destroying)) := by
    rw [hw₂, hw₁]
    exact Function.update_idem _ _ _
  have hwatch₂ : w₂.memory id = some (watch.refreshed w.destroying) := by
    rw [hmemory]
    simp
  refine wp_ends (maybeRetireWatch_spec hcore₂ hwatch₂) ?_
  rintro _ w₃ ⟨hcore₃, hdestroying₃, hmemory₃⟩
  refine ⟨hcore₃, hdestroying₃.trans hdestroying, ?_⟩
  rw [hmemory₃, hmemory, Watch.kept]
  split
  · exact Function.update_idem _ _ _
  · rfl

end Core

/-! ## The invariant of an event -/

section Inv

theorem want_updated (side : Side) (destroying : Bool) :
    (side.updated destroying).want = side.want := by
  unfold Side.updated
  split
  · rfl
  split <;> rfl

theorem side_refreshed (watch : Watch) (destroying : Bool) (d : Direction) :
    (watch.refreshed destroying).side d = (watch.side d).updated destroying := by cases d <;> rfl

theorem updated_wanted {side : Side} (hwant : side.want = true) :
    (side.updated false).active = true ∨ (side.updated false).cancelActive = true := by
  unfold Side.updated
  cases hactive : side.active <;> cases hcancel :
    side.cancelActive <;> simp [hwant, hactive, hcancel]

structure Watch.Settled (watch : Watch) (destroying : Bool) : Prop where
  wanted : destroying = false → ∀ d, (watch.side d).want = true →
    (watch.side d).active = true ∨ (watch.side d).cancelActive = true
  quiet : watch.callbackActive = false
  used : watch.idle = false

/-- While the callback of the watch `busy` runs, that watch stays and the other ones are settled. -/
structure Inv (busy : Option ℕ) (w : Watches) : Prop where
  core : Core w
  settled : ∀ id watch, w.memory id = some watch → busy ≠ some id → watch.Settled w.destroying
  kept : ∀ id, busy = some id → ∃ watch, w.memory id = some watch ∧ watch.callbackActive = true

/-- The invariant but for what it says of one watch. -/
structure Around (id : ℕ) (busy : Option ℕ) (w : Watches) : Prop where
  core : Core w
  settled : ∀ other watch, w.memory other = some watch → other ≠ id → busy ≠ some other →
    watch.Settled w.destroying
  kept : ∀ other, busy = some other → other ≠ id →
    ∃ watch, w.memory other = some watch ∧ watch.callbackActive = true

theorem Inv.around {busy : Option ℕ} {w : Watches} (h : Inv busy w) (id : ℕ) : Around id busy w :=
  ⟨h.core, fun other watch hwatch _ hbusy => h.settled other watch hwatch hbusy,
    fun other hbusy _ => h.kept other hbusy⟩

def Unwanted (w : Watches) (id : ℕ) : Prop :=
  ∀ watch, w.memory id = some watch → ∀ d, (watch.side d).want = false

structure Keeps (w w' : Watches) : Prop where
  destroying : w'.destroying = w.destroying
  unwanted : w.destroying = true → ∀ id, Unwanted w id → Unwanted w' id

theorem Keeps.refl (w : Watches) : Keeps w w := ⟨rfl, fun _ _ h => h⟩

theorem Keeps.trans {w w' w'' : Watches} (h : Keeps w w') (h' : Keeps w' w'') : Keeps w w'' :=
  ⟨h'.destroying.trans h.destroying, fun hd id hid =>
    h'.unwanted (h.destroying.trans hd) id (h.unwanted hd id hid)⟩

variable {w : Watches} {busy : Option ℕ} {id : ℕ} {watch : Watch}

/-- `updateWatch` settles a watch whose callback does not run. -/
theorem updateWatch_settles (h : Around id busy w) (hwatch : w.memory id = some watch)
    (hcallback : watch.callbackActive = true ↔ busy = some id) :
    wp (updateWatch id) (fun _ w' => Inv busy w' ∧ w'.destroying = w.destroying ∧
      (∀ other, other ≠ id → w'.memory other = w.memory other) ∧
      w'.memory id = (watch.refreshed w.destroying).kept) never w := by
  refine wp_ends (updateWatch_spec h.core hwatch) ?_
  rintro _ w' ⟨hcore, hdestroying, hmemory⟩
  have hother : ∀ other, other ≠ id → w'.memory other = w.memory other := by
    intro other hne
    rw [hmemory, Function.update_of_ne hne]
  have hself : w'.memory id = (watch.refreshed w.destroying).kept := by
    rw [hmemory, Function.update_self]
  refine ⟨⟨hcore, ?_, ?_⟩, hdestroying, hother, hself⟩
  · intro other watch' hwatch' hbusy
    rw [hdestroying]
    by_cases hid : other = id
    · subst hid
      obtain ⟨rfl, hused⟩ := kept_eq_some (hself.symm.trans hwatch')
      refine ⟨fun hlive d hwant => ?_, ?_, hused⟩
      · rw [side_refreshed, hlive] at hwant ⊢
        rw [want_updated] at hwant
        exact updated_wanted hwant
      · exact Bool.eq_false_iff.mpr fun hactive => hbusy (hcallback.mp hactive)
    · rw [hother other hid] at hwatch'
      exact h.settled other watch' hwatch' hid hbusy
  · intro other hbusy
    by_cases hid : other = id
    · subst hid
      have hactive : (watch.refreshed w.destroying).callbackActive = true := hcallback.mpr hbusy
      have hused : (watch.refreshed w.destroying).idle = false := by simp [Watch.idle, hactive]
      refine ⟨_, ?_, hactive⟩
      rw [hself, Watch.kept, hused]
      rfl
    · rw [hother other hid]
      exact h.kept other hbusy hid

theorem Inv.callback_iff (h : Inv busy w) (hwatch : w.memory id = some watch) :
    watch.callbackActive = true ↔ busy = some id := by
  constructor
  · intro hactive
    by_contra hbusy
    have hquiet := (h.settled id watch hwatch hbusy).quiet
    rw [hactive] at hquiet
    cases hquiet
  · intro hbusy
    obtain ⟨watch', hwatch', hactive⟩ := h.kept id hbusy
    rw [hwatch] at hwatch'
    obtain rfl := Option.some.inj hwatch'
    exact hactive

/-- `updateWatch` after the flags of a watch have changed, with the loop that they stand for. -/
theorem refresh_spec (h : Around id busy w) (hwatch : w.memory id = some watch) {watch' : Watch}
    (hfd : watch'.fd = watch.fd) {loop : Completion → Bool}
    (hloop : loop = expected (Function.update w.memory id (some watch'))) {asked : Fd → Bool × Bool}
    (hasked : asked = Function.update w.asked watch.fd watch'.wants) {busy' : Option ℕ}
    (hbusy : ∀ other, other ≠ id → (busy' = some other ↔ busy = some other))
    (hcallback : watch'.callbackActive = true ↔ busy' = some id) :
    wp (updateWatch id) (fun _ w' => Inv busy' w' ∧ w'.destroying = w.destroying ∧
      (∀ other, other ≠ id → w'.memory other = w.memory other) ∧
      w'.memory id = (watch'.refreshed w.destroying).kept) never { w with
        memory := Function.update w.memory id (some watch'), loop := loop, asked := asked } := by
  have hkeep : ∀ other, other ≠ id →
      Function.update w.memory id (some watch') other = w.memory other := fun other hne =>
    Function.update_of_ne hne _ _
  have haround : Around id busy' { w with
      memory := Function.update w.memory id (some watch'), loop := loop, asked := asked } := by
    refine ⟨h.core.set hwatch hfd hloop hasked, fun other found hfound hne hother => ?_,
      fun other hother hne => ?_⟩
    · exact h.settled other found ((hkeep other hne).symm.trans hfound) hne fun hsame =>
        hother ((hbusy other hne).mpr hsame)
    · obtain ⟨found, hfound, hactive⟩ := h.kept other ((hbusy other hne).mp hother) hne
      exact ⟨found, (hkeep other hne).trans hfound, hactive⟩
  have hwatch' := Function.update_self id (some watch') w.memory
  refine wp_ends (updateWatch_settles haround hwatch' hcallback) ?_
  rintro _ w' ⟨hinv, hdestroying, hother, hself⟩
  exact ⟨hinv, hdestroying, fun other hne => (hother other hne).trans (hkeep other hne), hself⟩

theorem Keeps.of_memory {w' : Watches} (hdestroying : w'.destroying = w.destroying)
    (hother : ∀ other, other ≠ id → w'.memory other = w.memory other)
    (hself : w.destroying = true → Unwanted w id → Unwanted w' id) : Keeps w w' := by
  refine ⟨hdestroying, fun hd other hunwanted => ?_⟩
  by_cases hid : other = id
  · subst hid
    exact hself hd hunwanted
  · intro found hfound
    rw [hother other hid] at hfound
    exact hunwanted found hfound

theorem setWants_spec (h : Around id busy w) (hwatch : w.memory id = some watch)
    (hcallback : watch.callbackActive = true ↔ busy = some id) (readable writable : Bool) :
    wp (setWants id readable writable) (fun _ w' => Inv busy w' ∧ w'.destroying = w.destroying ∧
      (∀ other, other ≠ id → w'.memory other = w.memory other) ∧
      (readable = false → writable = false → Unwanted w' id)) never w := by
  unfold setWants
  simp only [wp_bind, wp_modify]
  refine getWatch_wp hwatch (setWatch_wp hwatch ?_)
  have hloop : expected (Function.update w.memory id (some (watch.wanting readable writable))) =
      expected w.memory := expected_same hwatch fun d => by cases d <;> exact ⟨rfl, rfl⟩
  have hfd : (watch.wanting readable writable).fd = watch.fd := rfl
  have hcallback : (watch.wanting readable writable).callbackActive = true ↔ busy = some id :=
    hcallback
  refine wp_ends (refresh_spec h hwatch hfd (h.core.loop.trans hloop.symm) rfl
    (fun _ _ => Iff.rfl) hcallback) ?_
  rintro _ w' ⟨hinv, hdestroying, hother, hself⟩
  refine ⟨hinv, hdestroying, hother, ?_⟩
  rintro rfl rfl found hfound d
  rw [(kept_eq_some (hself.symm.trans hfound)).1, side_refreshed, want_updated]
  cases d <;> rfl

theorem Core.allocate (h : Core w) {fd : Fd} (hnone : w.watches fd = none) :
    Core { w with
      memory := Function.update w.memory w.allocated (some { fd := fd })
      watches := Function.update w.watches fd (some w.allocated)
      allocated := w.allocated + 1 } where
  table other id := by
    have hfree := h.fresh _ le_rfl
    by_cases hid : id = w.allocated
    · subst hid
      simp only [Function.update_self, Option.some.injEq, exists_eq_left']
      grind [Function.update_apply, h.table]
    · grind [Function.update_apply, h.table]
  fresh := by grind [Function.update_apply, h.fresh]
  gone := by grind [Function.update_apply, h.gone, h.fresh]
  once := h.once
  loop := by
    have hfree := h.fresh _ le_rfl
    funext c
    cases c with
    | poll id d | cancel id d =>
      by_cases hid : id = w.allocated
      · subst hid
        cases d <;> simp [h.loop, expected, hfree, Watch.side]
      · simp [h.loop, expected, hid]
  wants := by grind [Function.update_apply, Watch.wants, h.wants, h.unasked]
  unasked := by grind [Function.update_apply, h.unasked]

theorem socketState_spec (h : Inv busy w) (fd : Fd) (readable writable : Bool) (memory : Memory) :
    wp (socketState fd readable writable memory) (fun _ w' => Inv busy w' ∧ Keeps w w' ∧
      (w.destroying = true → ∀ id, w.watches fd = some id → Unwanted w' id)) never w := by
  unfold socketState
  simp only [wp_bind, wp_get]
  split
  · rename_i hnone
    exact ⟨h, .refl w, fun _ id hid => by cases hnone.symm.trans hid⟩
  · rename_i id hdestroying hid
    obtain ⟨watch, hwatch, -⟩ := (h.core.table fd id).mp hid
    simp only [wp_bind, wp_pure]
    refine wp_ends (setWants_spec (h.around id) hwatch (h.callback_iff hwatch) false false) ?_
    rintro _ w' ⟨hinv, hdestroying', hother, hunwanted⟩
    have hclosed := hunwanted rfl rfl
    refine ⟨hinv, .of_memory hdestroying' hother fun _ _ => hclosed, fun _ found hfound => ?_⟩
    obtain rfl := Option.some.inj (hid.symm.trans hfound)
    exact hclosed
  · rename_i id hdestroying hid
    obtain ⟨watch, hwatch, -⟩ := (h.core.table fd id).mp hid
    have hlive : ¬w.destroying = true := by simp [hdestroying]
    simp only [wp_bind, wp_pure]
    refine wp_ends (setWants_spec (h.around id) hwatch (h.callback_iff hwatch) readable writable) ?_
    rintro _ w' ⟨hinv, hdestroying', hother, -⟩
    exact ⟨hinv, .of_memory hdestroying' hother fun hd => absurd hd hlive, fun hd =>
      absurd hd hlive⟩
  · rename_i hdestroying hnone
    have hlive : ¬w.destroying = true := by simp [hdestroying]
    split
    · exact ⟨h, .refl w, fun hd => absurd hd hlive⟩
    simp only [wp_bind, wp_modify, wp_pure]
    have hfree : w.memory w.allocated = none := h.core.fresh _ (Nat.le_refl _)
    have hother : ∀ other, other ≠ w.allocated →
        Function.update w.memory w.allocated (some { fd := fd }) other = w.memory other :=
      fun other hne => Function.update_of_ne hne _ _
    have hbusy : busy ≠ some w.allocated := by
      intro hbusy
      obtain ⟨watch, hwatch, -⟩ := h.kept _ hbusy
      rw [hfree] at hwatch
      cases hwatch
    have haround : Around w.allocated busy { w with
        memory := Function.update w.memory w.allocated (some { fd := fd })
        watches := Function.update w.watches fd (some w.allocated)
        allocated := w.allocated + 1 } := by
      refine ⟨h.core.allocate hnone, fun other watch hwatch hne hother' => ?_,
        fun other hother' hne => ?_⟩
      · exact h.settled other watch ((hother other hne).symm.trans hwatch) hother'
      · obtain ⟨watch, hwatch, hactive⟩ := h.kept other hother'
        exact ⟨watch, (hother other hne).trans hwatch, hactive⟩
    have hwatch := Function.update_self w.allocated (some ({ fd := fd } : Watch)) w.memory
    refine wp_ends (setWants_spec haround hwatch (by simp [hbusy]) readable writable) ?_
    rintro _ w' ⟨hinv, hdestroying', -, -⟩
    exact ⟨hinv, ⟨hdestroying', fun hd => absurd hd hlive⟩, fun hd => absurd hd hlive⟩

variable {d : Direction}

theorem Core.live_of_poll (h : Core w) (hloop : w.loop (.poll id d) = true) :
    ∃ watch, w.memory id = some watch := by
  rw [h.loop] at hloop
  cases hwatch : w.memory id with
  | none => simp [expected, hwatch] at hloop
  | some watch => exact ⟨watch, rfl⟩

theorem Core.live_of_cancel (h : Core w) (hloop : w.loop (.cancel id d) = true) :
    ∃ watch, w.memory id = some watch := by
  rw [h.loop] at hloop
  cases hwatch : w.memory id with
  | none => simp [expected, hwatch] at hloop
  | some watch => exact ⟨watch, rfl⟩

def Watch.called (watch : Watch) (d : Direction) : Watch :=
  { watch.setSide { watch.side d with active := false } d with callbackActive := true }

theorem side_called (watch : Watch) (d e : Direction) :
    (watch.called d).side e = (watch.setSide { watch.side d with active := false } d).side e := by
  cases e <;> rfl

theorem expected_called {memory : ℕ → Option Watch} (hwatch : memory id = some watch)
    (d : Direction) :
    expected (Function.update memory id (some (watch.called d))) =
      Function.update (expected memory) (.poll id d) false := by
  have hset := expected_poll hwatch { watch.side d with active := false } (d := d) rfl
  have hsame : expected (Function.update (Function.update memory id
      (some (watch.setSide { watch.side d with active := false } d))) id (some (watch.called d))) =
      expected (Function.update memory id
        (some (watch.setSide { watch.side d with active := false } d))) :=
    expected_same (Function.update_self _ _ _) fun e => by
      rw [side_called]
      exact ⟨rfl, rfl⟩
  rw [Function.update_idem] at hsame
  exact hsame.trans hset

theorem beginCallback_spec (h : Inv none w) (hloop : w.loop (.poll id d) = true) :
    wp (beginCallback id d) (fun _ w' => Inv (some id) w' ∧ Keeps w w') never w := by
  obtain ⟨watch, hwatch⟩ := h.core.live_of_poll hloop
  unfold beginCallback
  simp only [wp_bind, wp_modify, wp_pure]
  refine getWatch_wp hwatch (setWatch_wp hwatch ?_)
  have hexpected := expected_called hwatch d
  rw [← h.core.loop] at hexpected
  have hother : ∀ other, other ≠ id →
      Function.update w.memory id (some (watch.called d)) other = w.memory other :=
    fun other hne => Function.update_of_ne hne _ _
  have hself : Function.update w.memory id (some (watch.called d)) id = some (watch.called d) :=
    Function.update_self _ _ _
  refine ⟨⟨?_, ?_, ?_⟩, ?_⟩
  · have hfd : (watch.called d).fd = watch.fd := fd_setSide _ _ _
    exact h.core.set hwatch hfd hexpected.symm (h.core.asked_eq hwatch (wants_setSide rfl))
  · intro other found hfound hne
    have hne' : other ≠ id := fun heq => hne (congrArg some heq.symm)
    exact h.settled other found ((hother other hne').symm.trans hfound) (by simp)
  · intro other hbusy
    obtain rfl := Option.some.inj hbusy
    exact ⟨watch.called d, hself, rfl⟩
  · refine .of_memory rfl hother fun _ hunwanted found hfound e => ?_
    obtain rfl := Option.some.inj (hself.symm.trans hfound)
    rw [side_called, want_setSide watch { watch.side d with active := false } d e rfl]
    exact hunwanted watch hwatch e

theorem endCallback_spec (h : Inv (some id) w) :
    wp (endCallback id) (fun _ w' => Inv none w' ∧ Keeps w w') never w := by
  obtain ⟨watch, hwatch, -⟩ := h.kept id rfl
  unfold endCallback
  simp only [wp_bind]
  refine getWatch_wp hwatch (setWatch_wp hwatch ?_)
  have hsides : ∀ d, ({ watch with callbackActive := false } : Watch).side d = watch.side d := by
    intro d
    cases d <;> rfl
  have hloop : expected (Function.update w.memory id
      (some { watch with callbackActive := false })) = expected w.memory :=
    expected_same hwatch fun d => by
      rw [hsides]
      exact ⟨rfl, rfl⟩
  have hfd : ({ watch with callbackActive := false } : Watch).fd = watch.fd := rfl
  have hbusy : ∀ other, other ≠ id → ((none : Option ℕ) = some other ↔ some id = some other) := by
    intro other hne
    simp [Ne.symm hne]
  have hcallback : ({ watch with callbackActive := false } : Watch).callbackActive = true ↔
      (none : Option ℕ) = some id := by simp
  refine wp_ends (refresh_spec (h.around id) hwatch hfd (h.core.loop.trans hloop.symm)
    (h.core.asked_eq hwatch rfl) hbusy hcallback) ?_
  rintro _ w' ⟨hinv, hdestroying, hother, hself⟩
  refine ⟨hinv, .of_memory hdestroying hother fun _ hunwanted found hfound d => ?_⟩
  rw [(kept_eq_some (hself.symm.trans hfound)).1, side_refreshed, want_updated, hsides]
  exact hunwanted watch hwatch d

theorem onCancelled_spec (h : Inv none w) (hloop : w.loop (.cancel id d) = true) :
    wp (onCancelled id d) (fun _ w' => Inv none w' ∧ Keeps w w' ∧ ∀ watch, w.memory id =
      some watch →
      w.destroying = false → (watch.side d).want = true → w'.loop (.poll id d) = true) never w := by
  obtain ⟨watch, hwatch⟩ := h.core.live_of_cancel hloop
  unfold onCancelled
  simp only [wp_bind, wp_modify]
  refine getWatch_wp hwatch (setWatch_wp hwatch ?_)
  have hexpected := expected_cancel hwatch { watch.side d with cancelActive := false } (d := d) rfl
  rw [← h.core.loop] at hexpected
  have hcallback : (watch.setSide { watch.side d with cancelActive := false } d).callbackActive =
      true ↔ (none : Option ℕ) = some id := by
    rw [callbackActive_setSide]
    exact h.callback_iff hwatch
  refine wp_ends (refresh_spec (h.around id) hwatch (fd_setSide _ _ _) hexpected.symm
    (h.core.asked_eq hwatch (wants_setSide rfl)) (fun _ _ => Iff.rfl) hcallback) ?_
  rintro _ w' ⟨hinv, hdestroying, hother, hself⟩
  refine ⟨hinv, .of_memory hdestroying hother fun _ hunwanted found hfound e => ?_, ?_⟩
  · rw [(kept_eq_some (hself.symm.trans hfound)).1, side_refreshed, want_updated,
      want_setSide watch { watch.side d with cancelActive := false } d e rfl]
    exact hunwanted watch hwatch e
  · intro watch' hwatch' hlive hwant
    obtain rfl := Option.some.inj (hwatch.symm.trans hwatch')
    rw [hlive] at hself
    generalize hset : watch.setSide { watch.side d with cancelActive := false } d = set at hself
    have hside : set.side d = { watch.side d with cancelActive := false } := by
      rw [← hset, side_setSide_same]
    have hactive : ((set.refreshed false).side d).active = true := by
      rw [side_refreshed, hside]
      unfold Side.updated
      cases hactive : (watch.side d).active <;> simp [hwant, hactive]
    have hused : (set.refreshed false).idle = false := by
      cases d <;> simp_all [Watch.idle, Side.idle, Watch.side]
    have hfound : w'.memory id = some (set.refreshed false) := by
      rw [hself, Watch.kept, hused]
      rfl
    rw [hinv.core.poll_eq hfound, hactive]

end Inv

/-! ## The adapter -/

section Safe

variable {α β : Type} {busy : Option ℕ}

theorem onWatches_wp {x : WatchM α} {Q : α → Adapter → Prop} {E : Fault → Adapter → Prop}
    {a : Adapter} : wp (onWatches x) Q E a ↔
      wp x (fun r w => Q r { a with toWatches := w }) (fun e w => E e { a with toWatches := w })
        a.toWatches := by
  unfold wp onWatches
  cases x a.toWatches with
  | ok => rfl
  | error => rfl

/-- The code runs without a fault and keeps the invariant of the watches. -/
def Safe (busy : Option ℕ) (x : AdapterM α) : Prop :=
  ∀ a : Adapter, Inv busy a.toWatches → wp x
    (fun _ a' => Inv busy a'.toWatches ∧ Keeps a.toWatches a'.toWatches) never a

theorem Safe.pure (r : α) : Safe busy (pure r) := fun a h => ⟨h, .refl a.toWatches⟩

theorem Safe.get : Safe busy get := fun a h => ⟨h, .refl a.toWatches⟩

theorem Safe.modify {f : Adapter → Adapter} (hf : ∀ a, (f a).toWatches = a.toWatches) :
    Safe busy (modify f) := by
  intro a h
  rw [wp_modify, hf]
  exact ⟨h, .refl a.toWatches⟩

theorem Safe.bind {x : AdapterM α} {f : α → AdapterM β} (hx : Safe busy x)
    (hf : ∀ r, Safe busy (f r)) : Safe busy (x >>= f) := by
  intro a h
  refine wp_seq (hx a h) ?_
  rintro r a₁ ⟨h₁, hkeeps₁⟩
  refine wp_imp (hf r a₁ h₁) ?_
  rintro _ a₂ ⟨h₂, hkeeps₂⟩
  exact ⟨h₂, hkeeps₁.trans hkeeps₂⟩

theorem Safe.ite {p : Prop} [Decidable p] {x y : AdapterM α} (hx : Safe busy x) (hy : Safe busy y) :
    Safe busy (if p then x else y) := by
  split
  · exact hx
  · exact hy

theorem safe_socketState (fd : Fd) (readable writable : Bool) (memory : Memory) :
    Safe busy (onWatches (socketState fd readable writable memory)) := by
  intro a h
  rw [onWatches_wp]
  exact wp_imp (socketState_spec h fd readable writable memory) fun _ _ hpost =>
    ⟨hpost.1, hpost.2.1⟩

theorem safe_rescheduleTimeout (pending : Bool) : Safe busy (rescheduleTimeout pending) := by
  refine Safe.get.bind fun a => ?_
  have hschedule : Safe busy scheduleTimer := .modify fun _ => rfl
  exact .ite (.pure ()) (.ite hschedule (.ite hschedule (.pure ())))

theorem safe_onSocketState (fd : Fd) (readable writable : Bool) (memory : Memory) :
    Safe busy (onSocketState fd readable writable memory) := by
  refine (safe_socketState fd readable writable memory).bind fun watched => .ite ?_ (.pure _)
  unfold failIntegration
  exact .bind (.modify fun _ => rfl) fun _ => safe_rescheduleTimeout false

theorem safe_onResolved (forced : Bool) (status : Status) (nodes : Option (List Node))
    (oom : Bool) :
    Safe busy (onResolved forced status nodes oom) := by
  unfold onResolved
  refine .bind (.modify fun _ => rfl) fun _ => .bind .get fun a => ?_
  cases a.callback with
  | none => exact .pure ()
  | some =>
    refine .bind (.modify fun _ => rfl) fun _ => .bind .get fun b => ?_
    exact .ite (.modify fun _ => rfl) (.modify fun _ => rfl)

theorem safe_callBacks (callbacks : List Callback) : Safe busy (callBacks callbacks) := by
  induction callbacks with
  | nil => exact .pure ()
  | cons callback rest ih =>
    refine Safe.bind ?_ fun _ => ih
    cases callback with
    | socketState fd readable writable memory =>
      exact safe_onSocketState fd readable writable memory
    | resolved status nodes oom =>
      exact Safe.get.bind fun a => .ite (safe_onResolved false status nodes oom) (.pure _)

theorem safe_endQuery (forced : Bool) (status : Status) : Safe busy (endQuery forced status) :=
  Safe.get.bind fun _ => .ite (safe_onResolved forced status none false) (.pure _)

theorem safe_aresCancel (forced : Bool) (callbacks : List Callback) :
    Safe busy (aresCancel forced callbacks) :=
  (safe_endQuery forced .cancelled).bind fun _ => safe_callBacks callbacks

theorem safe_processFd (callbacks : List Callback) (pending : Bool) :
    Safe busy (processFd callbacks pending) := by
  refine Safe.get.bind fun a => .ite ?_ (.pure _)
  exact (safe_callBacks callbacks).bind fun _ => safe_rescheduleTimeout pending

theorem safe_onTimer (fired : Bool) (callbacks : List Callback) (pending : Bool) :
    Safe busy (onTimer fired callbacks pending) := by
  unfold onTimer
  refine .bind (.modify fun _ => rfl) fun _ => .bind .get fun a => .ite (.ite ?_ ?_) (.pure _)
  · refine .bind (.modify fun _ => rfl) fun _ => ?_
    exact .ite (safe_aresCancel true callbacks) (.pure _)
  · exact (safe_callBacks callbacks).bind fun _ => safe_rescheduleTimeout pending

end Safe

/-! ## Events -/

section Events

variable {a : Adapter} {w : Watches}

structure Boundary (w : Watches) : Prop where
  inv : Inv none w
  unwanted : w.destroying = true → ∀ id, Unwanted w id

theorem Boundary.keep {w' : Watches} (h : Boundary w) (hinv : Inv none w') (hkeeps : Keeps w w') :
    Boundary w' := by
  refine ⟨hinv, fun hd id => ?_⟩
  have hdestroying : w.destroying = true := hkeeps.destroying.symm.trans hd
  exact hkeeps.unwanted hdestroying id (h.unwanted hdestroying id)

theorem Safe.boundary {α : Type} {x : AdapterM α} (hx : Safe none x) (h : Boundary a.toWatches) :
    wp x (fun _ a' => Boundary a'.toWatches) never a := by
  refine wp_imp (hx a h.inv) ?_
  rintro _ a' ⟨hinv, hkeeps⟩
  exact h.keep hinv hkeeps

theorem Core.lt_allocated {id : ℕ} {watch : Watch} (h : Core w)
    (hwatch : w.memory id = some watch) :
    id < w.allocated := by
  by_contra hge
  rw [h.fresh id (Nat.le_of_not_lt hge)] at hwatch
  cases hwatch

theorem Core.mem_values (h : Core w) (id : ℕ) :
    id ∈ w.values ↔ ∃ watch, w.memory id = some watch := by
  unfold Watches.values
  rw [List.mem_filter, List.mem_range]
  constructor
  · rintro ⟨-, hlive⟩
    cases hwatch : w.memory id with
    | none => simp [hwatch] at hlive
    | some watch => exact ⟨watch, rfl⟩
  · rintro ⟨watch, hwatch⟩
    have htable := h.listed hwatch
    exact ⟨h.lt_allocated hwatch, by simp [hwatch, htable]⟩

section

variable (h : Inv none a.toWatches)

include h

theorem onSocketState_closes (hdestroying : a.destroying = true) {fd : Fd}
    {id : ℕ} (hid : a.watches fd = some id) :
    wp (onSocketState fd false false {}) (fun _ a' => Inv none a'.toWatches ∧
      Keeps a.toWatches a'.toWatches ∧ Unwanted a'.toWatches id) never a := by
  unfold onSocketState
  rw [wp_bind, onWatches_wp]
  refine wp_ends (socketState_spec h fd false false {}) ?_
  rintro watched w ⟨hinv, hkeeps, hclosed⟩
  have htail : Safe none (if !watched then failIntegration else pure ()) :=
    .ite (.bind (.modify fun _ => rfl) fun _ => safe_rescheduleTimeout false) (.pure ())
  refine wp_imp (htail { a with toWatches := w } hinv) ?_
  rintro _ a' ⟨hinv', hkeeps'⟩
  refine ⟨hinv', hkeeps.trans hkeeps', ?_⟩
  exact hkeeps'.unwanted (hkeeps.destroying.trans hdestroying) id (hclosed hdestroying id hid)

theorem closeAll_spec (hdestroying : a.destroying = true) (ids : List ℕ) :
    wp (closeAll ids) (fun _ a' => Inv none a'.toWatches ∧ Keeps a.toWatches a'.toWatches ∧
      ∀ id ∈ ids, Unwanted a'.toWatches id) never a := by
  induction ids generalizing a with
  | nil => exact ⟨h, .refl a.toWatches, nofun⟩
  | cons id rest ih =>
    -- the rest of the sockets, after that of `id` is closed
    have hrest : ∀ b : Adapter, Inv none b.toWatches → Keeps a.toWatches b.toWatches →
        Unwanted b.toWatches id → wp (closeAll rest) (fun _ a' => Inv none a'.toWatches ∧
          Keeps a.toWatches a'.toWatches ∧ ∀ other ∈ id :: rest, Unwanted a'.toWatches other)
          never b := by
      intro b hb hkeeps hclosed
      have hdestroying' : b.destroying = true := hkeeps.destroying.trans hdestroying
      refine wp_imp (ih hb hdestroying') ?_
      rintro _ a' ⟨hinv, hkeeps', hothers⟩
      refine ⟨hinv, hkeeps.trans hkeeps', fun other hmem => ?_⟩
      rcases List.mem_cons.mp hmem with rfl | hmem
      · exact hkeeps'.unwanted hdestroying' other hclosed
      · exact hothers other hmem
    unfold closeAll
    simp only [wp_bind, wp_get]
    cases hwatch : a.memory id with
    | none =>
      refine hrest a h (.refl _) fun watch hlive => ?_
      rw [hwatch] at hlive
      cases hlive
    | some watch =>
      have hid := h.core.listed hwatch
      simp only [wp_bind]
      refine wp_imp (onSocketState_closes h hdestroying hid) ?_
      rintro _ b ⟨hb, hkeeps, hclosed⟩
      exact hrest b hb hkeeps hclosed

theorem aresDestroy_spec (hdestroying : a.destroying = true) (callbacks : List Callback) :
    wp (aresDestroy callbacks) (fun _ a' => Boundary a'.toWatches) never a := by
  unfold aresDestroy
  simp only [wp_bind, wp_get]
  refine wp_imp (safe_endQuery false .destruction a h) ?_
  rintro _ b ⟨hb, hkeeps⟩
  refine wp_imp (safe_callBacks callbacks b hb) ?_
  rintro _ c ⟨hc, hkeeps'⟩
  have hdestroying' : c.destroying = true := (hkeeps.trans hkeeps').destroying.trans hdestroying
  refine wp_imp (closeAll_spec hc hdestroying' c.values) ?_
  rintro _ a' ⟨hinv, hclosing, hclosed⟩
  refine ⟨hinv, fun _ id => ?_⟩
  by_cases hmem : id ∈ c.values
  · exact hclosed id hmem
  · refine hclosing.unwanted hdestroying' id fun watch hwatch => ?_
    exact absurd ((hc.core.mem_values id).mpr ⟨watch, hwatch⟩) hmem

end

theorem shutdown_spec (h : Boundary a.toWatches) (cancelling destroying : List Callback) :
    wp (shutdown cancelling destroying) (fun _ a' => Boundary a'.toWatches) never a := by
  have hinv : Inv none { a.toWatches with destroying := true } :=
    ⟨{ h.inv.core with },
      fun id watch hwatch hbusy =>
        let hsettled := h.inv.settled id watch hwatch hbusy
        ⟨nofun, hsettled.quiet, hsettled.used⟩,
      nofun⟩
  unfold shutdown
  simp only [wp_bind, wp_get]
  split
  swap
  · exact h
  simp only [wp_bind, wp_modify, wp_get]
  have hdestroy : ∀ b : Adapter, Inv none b.toWatches → b.destroying = true →
      wp (aresDestroy destroying) (fun _ b' => Boundary { b' with channel := false }.toWatches)
        never b := fun b hb hd => aresDestroy_spec hb hd destroying
  split
  · simp only [wp_bind]
    refine wp_mono (safe_aresCancel false cancelling { a with destroying := true } hinv) ?_
      fun _ _ hfault => hfault
    rintro _ b ⟨hb, hkeeps⟩
    exact hdestroy b hb hkeeps.destroying
  · simp only [wp_bind]
    exact hdestroy { a with destroying := true } hinv rfl

theorem safe_resolve (port context : ℕ) (callbacks : List Callback) (pending : Bool) :
    Safe none (resolve port context callbacks pending) := by
  intro b h
  unfold resolve
  simp only [wp_bind, wp_get]
  split
  · exact ⟨h, .refl _⟩
  split
  · exact ⟨h, .refl _⟩
  simp only [wp_bind, wp_set]
  have hrest : Safe none (do callBacks callbacks; rescheduleTimeout pending) :=
    (safe_callBacks callbacks).bind fun _ => safe_rescheduleTimeout pending
  have hwp := hrest { b with
    port := port
    callback := some ⟨context, port, b.integrationFailed, b.forceFailure, false⟩
    queryActive := true } h
  rw [wp_bind] at hwp
  exact hwp

theorem handle_spec (h : Boundary a.toWatches) (event : Event) :
    wp (handle event) (fun _ a' => Boundary a'.toWatches) never a := by
  cases event with
  | resolve port context callbacks pending =>
    unfold handle
    rw [wp_bind]
    refine wp_mono (Safe.boundary (safe_resolve port context callbacks pending) h) ?_
      fun _ _ hfault => hfault
    exact fun _ _ hb => hb
  | cancel callbacks pending =>
    refine Safe.boundary (Safe.get.bind fun b => .ite ?_ (.pure _)) h
    exact (safe_aresCancel false callbacks).bind fun _ => safe_rescheduleTimeout pending
  | shutdown cancelling destroying => exact shutdown_spec h cancelling destroying
  | ready id direction polled callbacks pending =>
    unfold handle
    simp only [wp_bind, wp_get]
    split
    swap
    · exact h
    rename_i hloop
    unfold onReady
    simp only [wp_bind]
    rw [onWatches_wp]
    refine wp_ends (beginCallback_spec h.inv hloop) ?_
    rintro wanted w ⟨hinv, hkeeps⟩
    have hend : ∀ b : Adapter, Inv (some id) b.toWatches → Keeps a.toWatches b.toWatches →
        wp (onWatches (endCallback id)) (fun _ a' => Boundary a'.toWatches) never b := by
      intro b hb hkeeps
      rw [onWatches_wp]
      refine wp_ends (endCallback_spec hb) ?_
      rintro _ w' ⟨hinv', hkeeps'⟩
      exact h.keep hinv' (hkeeps.trans hkeeps')
    split
    · rw [wp_bind]
      refine wp_mono (safe_processFd callbacks pending { a with toWatches := w } hinv) ?_
        fun _ _ hfault => hfault
      rintro _ b ⟨hb, hkeeps'⟩
      exact hend b hb (hkeeps.trans hkeeps')
    · exact hend { a with toWatches := w } hinv hkeeps
  | cancelled =>
    unfold handle
    simp only [wp_bind, wp_get]
    split
    swap
    · exact h
    rename_i hloop
    rw [onWatches_wp]
    refine wp_ends (onCancelled_spec h.inv hloop) ?_
    rintro _ w ⟨hinv, hkeeps, -⟩
    exact h.keep hinv hkeeps
  | timer fired callbacks pending =>
    exact Safe.boundary (Safe.get.bind fun b =>
      .ite (safe_onTimer fired callbacks pending) (.pure _)) h

theorem handleAll_spec (h : Boundary a.toWatches) (events : List Event) :
    wp (handleAll events) (fun _ a' => Boundary a'.toWatches) never a := by
  induction events generalizing a with
  | nil => exact h
  | cons event rest ih =>
    unfold handleAll
    exact wp_seq (handle_spec h event) fun _ b hb => ih hb

theorem initial_boundary : Boundary ({} : Adapter).toWatches := by
  refine ⟨⟨⟨by simp, fun _ _ => rfl, by simp, List.nodup_nil, ?_, nofun, fun _ _ => rfl⟩, nofun,
    nofun⟩, nofun⟩
  funext c
  cases c <;> rfl

/-! ## The end -/

theorem destroyAll_spec {ids : List ℕ} (hnodup : ids.Nodup) (hloop : ∀ c, w.loop c = false)
    (hlive : ∀ id ∈ ids, ∃ watch, w.memory id = some watch ∧ watch.callbackActive = false)
    (hunwanted : ∀ id ∈ ids, Unwanted w id) :
    wp (destroyAll ids) (fun _ w' => w'.destroyed = w.destroyed ++ ids ∧ w'.allocated = w.allocated)
      never w := by
  induction ids generalizing w with
  | nil => exact ⟨(List.append_nil _).symm, rfl⟩
  | cons id rest ih =>
    obtain ⟨hnew, hrest⟩ := List.nodup_cons.mp hnodup
    obtain ⟨watch, hwatch, hquiet⟩ := hlive id List.mem_cons_self
    have hwant := hunwanted id List.mem_cons_self watch hwatch
    have hfree : hasCompletion w id = false := by simp [hasCompletion, hloop]
    have hkept : ∀ other ∈ rest, Function.update w.memory id none other = w.memory other := by
      intro other hmem
      refine Function.update_of_ne ?_ _ _
      rintro rfl
      exact hnew hmem
    unfold destroyAll
    simp only [wp_bind, wp_get, wp_modify]
    refine getWatch_wp hwatch ?_
    rw [wp_ensure, wp_ensure]
    refine ⟨fun _ => ⟨fun _ => ?_, fun hbusy => absurd hfree hbusy⟩,
      fun hbusy => absurd ⟨hwant .read, hwant .write, hquiet⟩ hbusy⟩
    refine wp_ends (ih hrest hloop ?_ ?_) ?_
    · intro other hmem
      obtain ⟨watch', hwatch', hquiet'⟩ := hlive other (List.mem_cons_of_mem _ hmem)
      exact ⟨watch', (hkept other hmem).trans hwatch', hquiet'⟩
    · intro other hmem watch' hwatch'
      exact hunwanted other (List.mem_cons_of_mem _ hmem) watch'
        ((hkept other hmem).symm.trans hwatch')
    · rintro _ w' ⟨hdestroyed, hallocated⟩
      refine ⟨?_, hallocated⟩
      rw [hdestroyed]
      simp

theorem deinitAfterLoop_spec (h : Boundary w) (hdestroying : w.destroying = true) :
    wp deinitAfterLoop (fun _ w' => w'.destroyed.Nodup ∧
      ∀ id, id ∈ w'.destroyed ↔ id < w'.allocated) never w := by
  unfold deinitAfterLoop
  simp only [wp_bind, wp_modify, wp_get]
  rw [wp_ensure]
  refine ⟨fun _ => ?_, fun hlive => absurd hdestroying hlive⟩
  have hvalues : ({ w with loop := fun _ => false } : Watches).values = w.values := rfl
  have hmem := h.inv.core.mem_values
  rw [hvalues]
  refine wp_ends (destroyAll_spec ?_ (fun _ => rfl) ?_ ?_) ?_
  · exact List.Nodup.filter _ List.nodup_range
  · intro id hid
    obtain ⟨watch, hwatch⟩ := (hmem id).mp hid
    exact ⟨watch, hwatch, (h.inv.settled id watch hwatch (by simp)).quiet⟩
  · exact fun id _ => h.unwanted hdestroying id
  · rintro _ w' ⟨hdestroyed, hallocated⟩
    rw [hdestroyed, hallocated]
    constructor
    · refine List.nodup_append.mpr ⟨h.inv.core.once, List.Nodup.filter _ List.nodup_range, ?_⟩
      rintro id hgone _ hlive rfl
      obtain ⟨watch, hwatch⟩ := (hmem id).mp hlive
      rw [((h.inv.core.gone id).mp hgone).2] at hwatch
      cases hwatch
    · intro id
      rw [List.mem_append, h.inv.core.gone id, hmem id]
      constructor
      · rintro (⟨hlt, -⟩ | ⟨watch, hwatch⟩)
        · exact hlt
        · exact h.inv.core.lt_allocated hwatch
      · intro hlt
        cases hwatch : w.memory id with
        | none => exact .inl ⟨hlt, rfl⟩
        | some watch => exact .inr ⟨watch, rfl⟩

/-- In every run the machine has no fault: no watch is used after its end, no completion is set up
while the loop has it, and no watch is destroyed while it is wanted or in use.  At the end of every
event the table has exactly the live watches, one for each of its descriptors, and each wants what
c-ares asked for last, which is nothing for a descriptor without a watch; a wanted direction is
polled or a cancellation is under way, after which it is polled again; the loop has no poll of
another watch of the same descriptor; a watch is live or was destroyed once.  After the shutdown and
the end of the loop all watches that are left are destroyed. -/
theorem watch_machine (events : List Event) :
    ∃ a, (handleAll events).run {} = .ok () a ∧
      (∀ fd id, a.watches fd = some id ↔ ∃ watch, a.memory id = some watch ∧ watch.fd = fd) ∧
      (∀ id watch, a.memory id = some watch →
        a.asked watch.fd = (watch.read.want, watch.write.want)) ∧
      (∀ fd, a.watches fd = none → a.asked fd = (false, false)) ∧
      (∀ id watch d, a.memory id = some watch → a.destroying = false → (watch.side d).want = true →
        a.loop (.poll id d) = true ∨ a.loop (.cancel id d) = true ∧
          ∃ a', (handle (.cancelled id d)).run a = .ok () a' ∧ a'.loop (.poll id d) = true) ∧
      (∀ id id' watch watch' d, a.memory id = some watch → a.memory id' = some watch' →
        watch.fd = watch'.fd → a.loop (.poll id d) = true → a.loop (.poll id' d) = true →
          id = id') ∧
      (∀ id d, a.loop (.poll id d) = true ∨ a.loop (.cancel id d) = true →
        ∃ watch, a.memory id = some watch) ∧
      a.destroyed.Nodup ∧ (∀ id, id ∈ a.destroyed ↔ id < a.allocated ∧ a.memory id = none) ∧
      (a.destroying = true → ∃ w, deinitAfterLoop.run a.toWatches = .ok () w ∧ w.destroyed.Nodup ∧
        ∀ id, id ∈ w.destroyed ↔ id < w.allocated) := by
  obtain ⟨_, a, hresult, hrun⟩ := ok_of_wp (handleAll_spec initial_boundary events)
  have hcore := hrun.inv.core
  refine ⟨a, hresult, hcore.table, hcore.wants, hcore.unasked, ?_, ?_, ?_, hcore.once,
    hcore.gone, ?_⟩
  · intro id watch d hwatch hlive hwant
    rcases (hrun.inv.settled id watch hwatch nofun).wanted hlive d hwant with hactive | hcancel
    · exact .inl ((hcore.poll_eq hwatch d).trans hactive)
    · have hloop := (hcore.cancel_eq hwatch d).trans hcancel
      have hcancelled : wp (handle (.cancelled id d)) (fun _ a' => a'.loop (.poll id d) = true)
          never a := by
        unfold handle
        simp only [wp_bind, wp_get, hloop, if_true]
        rw [onWatches_wp]
        refine wp_ends (onCancelled_spec hrun.inv hloop) ?_
        rintro _ w ⟨-, -, hpolled⟩
        exact hpolled watch hwatch hlive hwant
      obtain ⟨_, a', ha', hpoll⟩ := ok_of_wp hcancelled
      exact .inr ⟨hloop, a', ha', hpoll⟩
  · intro id id' watch watch' d hwatch hwatch' hfd _ _
    have hid := hcore.listed hwatch
    have hid' := (hcore.table watch.fd id').mpr ⟨watch', hwatch', hfd.symm⟩
    exact Option.some.inj (hid.symm.trans hid')
  · rintro id d (hpoll | hcancel)
    · exact hcore.live_of_poll hpoll
    · exact hcore.live_of_cancel hcancel
  · intro hdestroying
    obtain ⟨_, w, hw, hend⟩ := ok_of_wp (deinitAfterLoop_spec hrun hdestroying)
    exact ⟨w, hw, hend⟩

/-- c-ares asks to read a socket and then, while the poll is delivered, to write to it instead. -/
def oneSocket : List Event :=
  [.resolve 50051 1 [.socketState 5 true false {}] true,
    .ready 0 .read true [.socketState 5 false true {}] true]

theorem watch_machine_oneSocket : ∃ a, (handleAll oneSocket).run {} = .ok () a ∧
    a.watches 5 = some 0 ∧ a.asked 5 = (false, true) ∧
    a.memory 0 = some { fd := 5, write := { want := true, active := true } } ∧
    a.loop (.poll 0 .write) = true := by
  obtain ⟨a, hrun, htable, -, -, hpolled, -⟩ := watch_machine oneSocket
  obtain ⟨b, hb, hasked, hlive, hmemory, hcancel⟩ : ∃ b, (handleAll oneSocket).run {} = .ok () b ∧
      b.asked 5 = (false, true) ∧ b.destroying = false ∧
      b.memory 0 = some { fd := 5, write := { want := true, active := true } } ∧
      b.loop (.cancel 0 .write) = false :=
    ⟨_, rfl, rfl, rfl, rfl, rfl⟩
  cases hrun.symm.trans hb
  refine ⟨a, hrun, (htable 5 0).mpr ⟨_, hmemory, rfl⟩, hasked, hmemory, ?_⟩
  rcases hpolled 0 _ .write hmemory hlive rfl with hpoll | ⟨hactive, -⟩
  · exact hpoll
  · cases hcancel.symm.trans hactive

end Events

end GrpcLite.Resolver
