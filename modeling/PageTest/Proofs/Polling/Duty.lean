import PageTest.Proofs.Polling.Handover
import PageTest.Proofs.Drive.Agreement

/-! What is known of a driver at its rounds. It looks at the log at its start and then once in a poll
interval, to the millisecond; if its load ends in between, the clock stands still until it has seen
that. -/

namespace PageTest

namespace DriverConfig

variable {c : DriverConfig} {k : Nat}

/-- When a driver looks at the log for the last time, counted from its start: the first of its looks
that does not come before the deadline. -/
def lastLook (c : DriverConfig) : Nat :=
  (c.timeoutSecs * 1000 + (c.pollIntervalMs - 1)) / c.pollIntervalMs * c.pollIntervalMs

theorem le_lastLook (hp : 1 ≤ c.pollIntervalMs) : c.timeoutSecs * 1000 ≤ c.lastLook := by
  have := Nat.lt_div_mul_add (a := c.timeoutSecs * 1000 + (c.pollIntervalMs - 1)) (b := c.pollIntervalMs) (by omega)
  unfold lastLook
  omega

/-- The driver gives up less than a poll interval too late. -/
theorem lastLook_lt (hp : 1 ≤ c.pollIntervalMs) : c.lastLook < c.timeoutSecs * 1000 + c.pollIntervalMs := by
  have := Nat.div_mul_le_self (c.timeoutSecs * 1000 + (c.pollIntervalMs - 1)) c.pollIntervalMs
  unfold lastLook
  omega

theorem next_le_lastLook (hp : 1 ≤ c.pollIntervalMs)
    (h : k * c.pollIntervalMs < c.timeoutSecs * 1000) : (k + 1) * c.pollIntervalMs ≤ c.lastLook := by
  refine Nat.mul_le_mul_right _ ((Nat.le_div_iff_mul_le (by omega)).2 ?_)
  rw [Nat.add_mul]
  omega

theorem eq_lastLook (hp : 1 ≤ c.pollIntervalMs) (h : c.timeoutSecs * 1000 ≤ k * c.pollIntervalMs)
    (hk : k * c.pollIntervalMs ≤ c.lastLook) : k * c.pollIntervalMs = c.lastLook := by
  refine Nat.le_antisymm hk (Nat.mul_le_mul_right _ (Nat.le_of_lt_succ ((Nat.div_lt_iff_lt_mul (by omega)).2 ?_)))
  rw [Nat.succ_mul]
  omega

end DriverConfig

namespace World

/-- Up to some time, a task had not ended. -/
def Unended (L t : Nat) (acts : List Act) : Prop :=
  ∀ act ∈ acts, act.before.now < t → act.before.ended? L = none

instance (L t : Nat) (acts : List Act) : Decidable (Unended L t acts) :=
  inferInstanceAs (Decidable (∀ act ∈ acts, act.before.now < t → act.before.ended? L = none))

/-- A task had no turn from some time on. -/
def Early (L t : Nat) (acts : List Act) : Prop :=
  ∀ act ∈ acts, act.mover = some L → act.before.now < t

end World

open World

/-- The end of the rounds that start at some time. -/
abbrev Setup.lastLook (su : Setup) (t₀ : Nat) : Nat := t₀ + su.driver.lastLook

/-- A time at which a driver looks at the log. -/
def Setup.OnGrid (su : Setup) (t₀ t : Nat) : Prop :=
  ∃ k, t = t₀ + k * su.driver.pollIntervalMs ∧ k * su.driver.pollIntervalMs ≤ su.driver.lastLook

namespace Setup.OnGrid

variable {su : Setup} {t₀ t : Nat}

theorem le (h : su.OnGrid t₀ t) : t ≤ su.lastLook t₀ := by
  obtain ⟨k, rfl, hk⟩ := h
  unfold lastLook
  omega

theorem next (h : su.OnGrid t₀ t) (hp : 1 ≤ su.driver.pollIntervalMs)
    (hd : t < t₀ + su.driver.timeoutSecs * 1000) : su.OnGrid t₀ (t + su.driver.pollIntervalMs) := by
  obtain ⟨k, rfl, -⟩ := h
  refine ⟨k + 1, by rw [Nat.add_mul]; omega, DriverConfig.next_le_lastLook hp (by omega)⟩

theorem last (h : su.OnGrid t₀ t) (hp : 1 ≤ su.driver.pollIntervalMs)
    (hd : t₀ + su.driver.timeoutSecs * 1000 ≤ t) : t = su.lastLook t₀ := by
  obtain ⟨k, rfl, hk⟩ := h
  have := DriverConfig.eq_lastLook hp (by omega) hk
  unfold lastLook
  omega

end Setup.OnGrid

/-- What holds at each phase of a driver that has been at work since the time `t₀`. -/
inductive Duty (su : Setup) (L t₀ : Nat) (acts : List Act) (w : World) : DrivePhase → Prop
  | looking : w.running = some 0 → w.mainTimers = [] → w.ended? L = none → su.OnGrid t₀ w.now →
      Unended L (su.lastLook t₀) acts → Early L (su.lastLook t₀) acts → Duty su L t₀ acts w (.look false)
  | joined : w.running = some 0 → w.now < su.lastLook t₀ → ¬ Unended L (su.lastLook t₀) acts →
      Early L (su.lastLook t₀) acts → Duty su L t₀ acts w (.look true)
  | watching {due : Nat} : w.Awaits L → w.mainTimers = [(due, 0)] → su.OnGrid t₀ due →
      (w.ended? L = none → Unended L (su.lastLook t₀) acts) → Early L (su.lastLook t₀) acts →
      Duty su L t₀ acts w (.watch due)
  | due : w.running = some 0 → w.waiter? L = some 0 → w.mainTimers = [] → w.ended? L = none →
      su.OnGrid t₀ w.now → Unended L (su.lastLook t₀) acts → Early L (su.lastLook t₀) acts →
      Duty su L t₀ acts w (.watch w.now)
  | settling : w.Awaits L → Duty su L t₀ acts w .settling
  | stopping : w.Awaits L → w.now = su.lastLook t₀ → w.running ≠ some L → w.doomed? L = true →
      (w.ended? L = none → L ∈ w.ready) → (∀ how, w.ended? L = some how → how = .cancelled) →
      Unended L (su.lastLook t₀) acts → Early L (su.lastLook t₀) acts → Duty su L t₀ acts w .stopping

/-- The main task drives a load that the task `L` is for. -/
structure AtWork (su : Setup) (p : String) (L t₀ : Nat) (below : List Frame) (acts : List Act)
    (w : World) (d : Drive) (phase : DrivePhase) : Prop where
  poised : w.Poised L
  drives : w.Drives d phase below
  path : d.path = p
  load : d.load = L
  deadline : d.deadline = t₀ + su.driver.timeoutSecs * 1000
  duty : Duty su L t₀ acts w phase

/-- What holds when a driver is back that was in some phase. -/
inductive Parting (su : Setup) (L t₀ : Nat) (acts : List Act) (w : World) (phase : DrivePhase)
    (o : Outcome) : Prop
  | finished : ¬ Unended L (su.lastLook t₀) acts → (∀ r, o = .value (.report r) → r.status ≠ .timedOut) →
      w.now < su.lastLook t₀ → Parting su L t₀ acts w phase o
  | settled : phase = .settling → (∀ r, o = .value (.report r) → r.status ≠ .timedOut) →
      Parting su L t₀ acts w phase o
  | stopped : Unended L (su.lastLook t₀) acts → Early L (su.lastLook t₀) acts →
      w.now = su.lastLook t₀ → w.ended? L = some .cancelled →
      (∃ r, o = .value (.report r)) → Parting su L t₀ acts w phase o

/-- The driver goes on, or it is back. -/
def Onto (su : Setup) (p : String) (L t₀ : Nat) (below : List Frame) (acts : List Act) (w : World)
    (phase : DrivePhase) : Prop :=
  (∃ d' phase', AtWork su p L t₀ below acts w d' phase' ∧
    (phase' = .settling → phase = .settling ∨ phase = .look false)) ∨
  ∃ o, w.Back 0 below o ∧ Parting su L t₀ acts w phase o

theorem World.Unended.snoc {L t : Nat} {acts : List Act} {w w' : World} {m : Option Nat}
    (h : Unended L t acts) (he : w.now < t → w.ended? L = none) : Unended L t (acts ++ [⟨m, w, w'⟩]) :=
  fun act ha => by
    rcases List.mem_append.1 ha with h1 | h1
    · exact h act h1
    · obtain rfl := List.mem_singleton.1 h1
      exact he

theorem World.not_unended_snoc {L t : Nat} {acts : List Act} {w w' : World} {m : Option Nat}
    (h : ¬ Unended L t acts ∨ (w.now < t ∧ (w.ended? L).isSome = true)) :
    ¬ Unended L t (acts ++ [⟨m, w, w'⟩]) := fun hu => by
  rcases h with h | ⟨h1, h2⟩
  · exact h fun act ha => hu act (by simp [ha])
  · simp [hu ⟨m, w, w'⟩ (by simp) h1] at h2

theorem World.Early.snoc {L t : Nat} {acts : List Act} {w w' : World} {m : Option Nat}
    (h : Early L t acts) (he : m = some L → w.now < t) : Early L t (acts ++ [⟨m, w, w'⟩]) :=
  fun act ha => by
    rcases List.mem_append.1 ha with h1 | h1
    · exact h act h1
    · obtain rfl := List.mem_singleton.1 h1
      exact he

/-- When it is not the main task's turn, its driver watches its load or waits for it to end; what others do then has
to leave alone what these two know. -/
theorem Duty.idle {su : Setup} {L t₀ : Nat} {acts acts' : List Act} {w u : World} {phase : DrivePhase}
    (h : Duty su L t₀ acts w phase) (hr : w.running ≠ some 0) (ha : u.Awaits L)
    (hwatch : ∀ due, w.mainTimers = [(due, 0)] → su.OnGrid t₀ due →
      (w.ended? L = none → Unended L (su.lastLook t₀) acts) → Early L (su.lastLook t₀) acts →
      Duty su L t₀ acts' u (.watch due))
    (hstop : w.now = su.lastLook t₀ → w.running ≠ some L → w.doomed? L = true → (w.ended? L = none → L ∈ w.ready) →
      (∀ how, w.ended? L = some how → how = .cancelled) → Unended L (su.lastLook t₀) acts →
      Early L (su.lastLook t₀) acts → Duty su L t₀ acts' u .stopping) :
    Duty su L t₀ acts' u phase := by
  cases h with
  | looking h0 => exact absurd h0 hr
  | joined h0 => exact absurd h0 hr
  | due h0 => exact absurd h0 hr
  | settling => exact .settling ha
  | watching _ htm hg hun hea => exact hwatch _ htm hg hun hea
  | stopping _ hnow hrL hdo hre hca hun hea => exact hstop hnow hrL hdo hre hca hun hea

/-- At the rounds, a driver looks at the log only while its load is going on. -/
theorem AtWork.ended_of_look {su : Setup} {p : String} {L t₀ : Nat} {below : List Frame} {acts : List Act} {w : World}
    {d : Drive} {phase : DrivePhase} (h : AtWork su p L t₀ below acts w d phase) (hp : phase = .look false) :
    w.ended? L = none := by
  subst hp
  cases h.duty with
  | looking _ _ he => exact he

/-- When it is not the main task's turn, that has been promised the next one after its load. -/
theorem AtWork.awaits {su : Setup} {p : String} {L t₀ : Nat} {below : List Frame} {acts : List Act} {w : World}
    {d : Drive} {phase : DrivePhase} (h : AtWork su p L t₀ below acts w d phase) (hr : w.running ≠ some 0) :
    w.Awaits L := by
  cases h.duty with
  | looking h0 => exact absurd h0 hr
  | joined h0 => exact absurd h0 hr
  | due h0 => exact absurd h0 hr
  | watching ha => exact ha
  | settling ha => exact ha
  | stopping ha => exact ha

end PageTest
