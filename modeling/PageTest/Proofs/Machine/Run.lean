import PageTest.Proofs.Machine.Core
import PageTest.Demo

/-! Runs under any scheduler. A task keeps its turn until it waits; after that any task that has
neither ended nor been asked to end may have the next one, at any later time, and any that was asked
to end may be given up. The machine's own scheduler is one of these. -/

namespace PageTest

namespace World

/-- The same world at a later time, perhaps with a task at its turn. -/
structure Later (w w' : World) : Prop where
  now : w.now ≤ w'.now
  core : w'.core = { w.core with now := w'.now, running := w'.running }
  scene : w'.scene = w.scene

/-- A task that may have a turn. Task 0 always may. -/
def Able (w : World) (t : Nat) : Prop :=
  t = 0 ∨ ∃ a, w.core.tasks[t]? = some a ∧ a.ended = none ∧ a.cancelled = false

/-- A task that has been asked to end and has not yet done so. -/
def Doomed (w : World) (t : Nat) : Prop := ∃ a, w.core.tasks[t]? = some a ∧ a.ended = none ∧
    a.cancelled = true

end World

/-- One step of a run, with the task that moves. The tasks of which `may` holds can be asked to end
at any time when nobody has a turn. -/
inductive Next (su : Setup) (may : Nat → Prop) : World → Option Nat → World → Prop
  | move {w : World} {t : Nat} : w.running = some t → Next su may w (some t) (w.runTask su t)
  | rest {w w' : World} : w.running = none → w.Later w' → (∀ t, w'.running = some t → w.Able t) →
      Next su may w none w'
  | drop {w v : World} {t : Nat} : w.running = none → w.Later v → v.running = none → w.Doomed t →
      Next su may w none (v.cancelNow t)
  | abort {w : World} {t : Nat} : w.running = none → may t → Next su may w none (w.cancel t)

/-- What happened in one step. -/
structure Act where
  mover : Option Nat
  before : World
  after : World

/-- The entries that an act appended. -/
def Act.entries (a : Act) : List LogEntry := a.after.log.history.drop a.before.log.history.length

inductive Run (su : Setup) (may : Nat → Prop) (w₀ : World) : List Act → World → Prop
  | start : Run su may w₀ [] w₀
  | step {acts : List Act} {w w' : World} {m : Option Nat} :
      Run su may w₀ acts w → Next su may w m w' → Run su may w₀ (acts ++ [⟨m, w, w'⟩]) w'

/-- All that was appended while a task had its turn. -/
def said (t : Nat) (acts : List Act) : List LogEntry :=
  acts.flatMap fun a => if a.mover = some t then a.entries else []

@[simp] theorem said_nil (t : Nat) : said t [] = [] := rfl

@[simp] theorem said_append (t : Nat) (acts acts' : List Act) :
    said t (acts ++ acts') = said t acts ++ said t acts' := by simp [said]

theorem said_singleton (t : Nat) (a : Act) :
    said t [a] = if a.mover = some t then a.entries else [] := by
  simp [said]

namespace Run

variable {su : Setup} {may : Nat → Prop} {w₀ w w' : World} {acts acts' : List Act}

theorem trans (h : Run su may w₀ acts w) (h' : Run su may w acts' w') :
    Run su may w₀ (acts ++ acts') w' := by
  induction h' with
  | start => simpa using h
  | step _ hn ih => simpa [List.append_assoc] using ih.step hn

theorem single {m : Option Nat} (h : Next su may w m w') : Run su may w [⟨m, w, w'⟩] w' := by
  simpa using Run.start.step h

end Run

/-! The machine's own scheduler -/

namespace World

variable {su : Setup} {may : Nat → Prop} {w w' : World}

theorem able_of_task {t : Nat} {a : Task} (h : w.task? t = some a) (he : a.ended.isSome = false)
    (hc : a.cancelled = false) : w.Able t :=
  .inr ⟨a.activity, by simp [getElem?_core, h], by simpa [Task.activity] using he, hc⟩

theorem next_turn {v : World} {t : Nat} (hr : w.running = none) (hv : w.Later v)
    (hn : v.running = none) (ht : v.task? t = w.task? t) : Next su may w none (v.turn t) := by
  have still : Next su may w none v := .rest hr hv fun u hu => by simp [hn] at hu
  unfold turn
  rw [ht]
  cases h : w.task? t with
  | none => exact still
  | some a =>
    dsimp only
    split_ifs with he hc
    · exact still
    · exact .drop hr hv hn ⟨a.activity, by simp [getElem?_core, h], by simpa [Task.activity] using he, hc⟩
    · refine .rest hr ⟨hv.now, ?_, hv.scene⟩ fun u hu => ?_
      · have := hv.core
        simp only [core, giveTurn, Core.mk.injEq] at this ⊢
        simp [this]
      · obtain rfl : t = u := by simpa [giveTurn] using hu
        exact able_of_task h (by simpa using he) (by simpa using hc)

theorem scene_wake (w : World) (t : Nat) : (w.wake t).scene = w.scene := by
  unfold wake; split_ifs <;> rfl

theorem scene_wakeAll (ts : List Nat) (w : World) : (w.wakeAll ts).scene = w.scene := by
  induction ts generalizing w with
  | nil => rfl
  | cons t ts ih => exact (ih _).trans (scene_wake w t)

theorem later_wakeAll {v : World} (h : w.Later v) (ts : List Nat) : w.Later (v.wakeAll ts) := by
  have hc : (v.wakeAll ts).core = v.core := core_wakeAll v ts
  have hn : (v.wakeAll ts).now = v.now := congrArg Core.now hc
  have hr : (v.wakeAll ts).running = v.running := congrArg Core.running hc
  exact ⟨hn ▸ h.now, by rw [hc, hn, hr]; exact h.core, (scene_wakeAll ts v).trans h.scene⟩

theorem later_wakeYielding (w : World) : w.Later w.wakeYielding :=
  later_wakeAll (w := w) (v := { w with yielding := [] }) ⟨le_rfl, rfl, rfl⟩ w.yielding

theorem later_advanceTo (w : World) (due : Nat) : w.Later (w.advanceTo due) := by
  have hw : w.Later { w with now := max w.now due, timers := w.timers.filter (due < ·.1) } :=
    ⟨le_max_left _ _, rfl, rfl⟩
  have h := later_wakeAll hw ((w.timers.filter (·.1 ≤ due)).map (·.2))
  unfold advanceTo
  dsimp only
  split
  · split_ifs
    · exact ⟨h.now, h.core, h.scene⟩
    · exact h
  · exact h

theorem running_advanceTo (w : World) (due : Nat) : (w.advanceTo due).running = w.running := by
  have h (v : World) (ts : List Nat) : (v.wakeAll ts).running = v.running :=
    congrArg Core.running (core_wakeAll v ts)
  unfold advanceTo
  dsimp only
  split
  · split_ifs
    · exact h _ _
    · exact h _ _
  · exact h _ _

theorem next_nextRound (hr : w.running = none) (h : w.nextRound? = some w') :
    Next su may w none w' := by
  obtain ⟨v, hv, rfl⟩ := Option.map_eq_some_iff.1 h
  have later : w.Later v ∧ v.running = none := by
    split_ifs at hv
    · obtain rfl := Option.some.inj hv
      exact ⟨later_wakeYielding w, (congrArg Core.running (core_wakeYielding w)).trans hr⟩
    · obtain ⟨due, -, rfl⟩ := Option.map_eq_some_iff.1 hv
      exact ⟨later_advanceTo w due, (running_advanceTo w due).trans hr⟩
  split_ifs
  · refine .rest hr ⟨later.1.now, ?_, later.1.scene⟩ fun u hu =>
      .inl (by simpa [giveTurn] using hu.symm)
    have := later.1.core
    simp only [core, giveTurn, Core.mk.injEq] at this ⊢
    simp [this]
  · exact .rest hr later.1 fun u hu => by simp [later.2] at hu

/-- Whatever the machine does next is a step under any scheduler. -/
theorem next_of_step? (h : w.step? su = some w') : Next su may w w.running w' := by
  unfold step? at h
  split at h
  case h_1 t hr =>
    obtain rfl := Option.some.inj h
    rw [hr]
    exact .move hr
  case h_2 hr =>
    rw [hr]
    split at h
    · obtain rfl := Option.some.inj h
      exact next_turn hr ⟨le_rfl, rfl, rfl⟩ hr rfl
    · exact next_nextRound hr h

/-- The world some steps later. -/
def afterSteps (su : Setup) : Nat → World → World
  | 0, w => w
  | n + 1, w => match w.step? su with
    | none => w
    | some w' => afterSteps su n w'

/-- What happens in the next so many steps. -/
def actsOf (su : Setup) : Nat → World → List Act
  | 0, _ => []
  | n + 1, w => match w.step? su with
    | none => []
    | some w' => ⟨w.running, w, w'⟩ :: actsOf su n w'

theorem run_afterSteps (n : Nat) (w : World) :
    Run su may w (actsOf su n w) (afterSteps su n w) := by
  induction n generalizing w with
  | zero => exact .start
  | succ n ih =>
    unfold actsOf afterSteps
    cases h : w.step? su with
    | none => exact .start
    | some w' => exact (Run.single (next_of_step? h)).trans (ih w')

/-- What every step hands on holds after any number of steps. -/
theorem afterSteps_induction {P : List Act → World → Prop} {C : World → Prop}
    (hstep : ∀ acts v v', P acts v → C v → v.step? su = some v' → P (acts ++ [⟨v.running, v, v'⟩]) v')
    (n : Nat) {acts : List Act} (h : P acts w) (hC : ∀ act ∈ w.actsOf su n, C act.before) :
    P (acts ++ w.actsOf su n) (w.afterSteps su n) := by
  induction n generalizing acts w with
  | zero => simpa [actsOf, afterSteps] using h
  | succ n ih =>
    cases hs : w.step? su with
    | none => simpa [actsOf, afterSteps, hs] using h
    | some w' =>
      simp only [actsOf, afterSteps, hs] at hC ⊢
      have h' := hstep acts w w' h (hC _ (List.mem_cons_self ..)) hs
      simpa using ih h' fun act ha => hC act (List.mem_cons_of_mem _ ha)

end World

/-! The demo page under the machine's own scheduler -/

namespace Demo

def slowPath : String := "tests/webtest/slow.js"

/-- The demo scripts and one that takes longer than the driver waits. -/
def setup : Setup where
  driver := { DriverConfig.default with timeoutSecs := 1 }
  catalog := script slowPath [("slow", [.ok true "begun", .sleep 5000, .ok true "too late"])] :: catalog
  loader := ⟨0, none⟩
  deaf := false
  outputBlocked := false
  epoch := ⟨0, 0⟩
  clockSecs := 0
  patience := none

/-- Some tasks on the demo page, all of them ready but the main one. -/
def world (main : List Frame) (others : List (List Frame)) : World :=
  { World.ofPage page with
    tasks := (main :: others).map .start
    running := some 0
    ready := (List.range others.length).map (· + 1) }

end Demo

end PageTest
