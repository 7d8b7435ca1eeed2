import PageTest.Proofs.Drive.Launch
import PageTest.Proofs.History.Moves

/-! A load does not depend on what a session has behind it. Two sessions at rest that show the same page may have
different logs, registries and clocks, and different tasks behind them: a load that is called for in both goes the
same way, step by step. It forgets the registry before anybody looks at it, and all else is a matter of numbering. -/

namespace PageTest

namespace Step

/-- The step does not look into the log, and loads none but such paths. It may be free to refer to what
a session keeps. -/
def heedless (safe : String → Bool) (free : Bool) : Step → Bool
  | .load path => safe path
  | s => s.unread && (free || !s.refers)

theorem unread_of_heedless {safe : String → Bool} {free : Bool} {s : Step} (h : s.heedless safe free = true) :
    s.unread = true ∧ (s.refers = true → free = true) := by
  cases s with
  | load path => exact ⟨rfl, nofun⟩
  | _ => simpa [heedless, refers] using h

end Step

/-- The path's script and all bodies that come of it do without a look into the log, and load none but such paths.
They may be free to refer to what a session keeps. -/
structure Setup.Heedless (su : Setup) (safe : String → Bool) (free : Bool) (p : String) : Prop where
  path : safe p = true
  scripts : ∀ q sc, safe q = true → su.catalog.script? q = some sc →
    Step.allEvery (Step.heedless safe free) (Step.heedless safe free) sc.body = true

namespace World

/-- Calls for a load in the main task. -/
def call (w : World) (p : String) : World :=
  { w.modifyTask 0 fun x => { x with stack := [.load p .arriving], returned := none } with running := some 0 }

/-- Nothing is going on: the main task is free, all others are over, and nobody holds the load lock or wants it. -/
structure Resting (w : World) : Prop where
  main : ∃ x ∈ w.tasks.head?, x.stack = [] ∧ x.ended = none ∧ x.cancelled = false ∧ x.waiter = none
  others : ∀ x ∈ w.tasks.drop 1, x.stack = []
  ready : w.ready = []
  mainReady : w.mainReady = false
  yielding : w.yielding = []
  timers : w.timers = []
  alarm : w.alarm = none
  holder : w.lock.holder = none
  queue : w.lock.queue = []

instance (w : World) : Decidable w.Resting :=
  decidable_of_iff ((∃ x ∈ w.tasks.head?, x.stack = [] ∧ x.ended = none ∧ x.cancelled = false ∧ x.waiter = none) ∧
      (∀ x ∈ w.tasks.drop 1, x.stack = []) ∧ w.ready = [] ∧ w.mainReady = false ∧ w.yielding = [] ∧ w.timers = [] ∧
      w.alarm = none ∧ w.lock.holder = none ∧ w.lock.queue = [])
    ⟨fun ⟨a, b, c, d, e, f, g, i, j⟩ => ⟨a, b, c, d, e, f, g, i, j⟩,
      fun ⟨a, b, c, d, e, f, g, i, j⟩ => ⟨a, b, c, d, e, f, g, i, j⟩⟩

/-- Two worlds that show the same page, with as much of the turn left. Where bodies are free to refer to what a
session keeps, that is the same as well: as many numbers were given to tasks, and none is left to be asked for. -/
structure Alike (free : Bool) (w v : World) : Prop where
  scene : { w.scene with trace := [] } = { v.scene with trace := [] }
  allowance : w.allowance = v.allowance
  kept : free = true → (w.handles = v.handles ∧ ∀ t ∈ w.handles, t = none) ∧ w.suite = v.suite

end World

/-- The test that an act starts. -/
def Act.started? (act : Act) : Option Test :=
  act.activity?.bind fun a => match a.stack, a.returned with
    | .pass _ (t :: _) :: _, none => some t
    | _, _ => none

/-- The tests that were started, in order. -/
def started (acts : List Act) : List Test := acts.filterMap Act.started?

variable {su : Setup} {p : String} {safe : String → Bool} {free : Bool} {w v u u' : World} {h k : Prior}

/-! A world without its history -/

namespace World

/-- What is behind a world at rest. -/
def Resting.prior (hw : w.Resting) (free : Bool) : Prior where
  time := w.now
  log := w.log
  trace := w.scene.trace
  tickets := w.lock.tickets
  gone := w.tasks.drop 1
  still := hw.others
  kept := if free then none else some (w.handles, w.suite)

/-- Where a load stands that has not begun in earnest. -/
inductive Doorstep (p : String) (w : World) : Prop
  | arriving : w.running = some 0 → w.yielding = [] → w.lock.holder = none →
      w.tasks = [.start [.load p .arriving]] → Doorstep p w
  | standing : w.running = none → w.yielding = [0] → w.lock.holder = none →
      w.tasks = [.start [.load p .arriving]] → Doorstep p w
  | queueing (k : Nat) : w.running = some 0 → w.yielding = [] → w.lock.holder = some k →
      w.tasks = [.start [.load p (.queueing k)]] → Doorstep p w
  | entered (k : Nat) : w.running = some 0 → w.yielding = [] → w.lock.holder = some k →
      w.tasks = [.start [.load p (.entered k)]] → Doorstep p w

/-- A load that has not begun in earnest is all there is. -/
structure Unbegun (p : String) (w : World) : Prop where
  ready : w.ready = []
  mainReady : w.mainReady = false
  stage : Doorstep p w

theorem Unbegun.task (hw : Unbegun p w) : ∃ phase, w.tasks = [.start [.load p phase]] := by
  cases hw.stage with
  | arriving _ _ _ ht => exact ⟨_, ht⟩
  | standing _ _ _ ht => exact ⟨_, ht⟩
  | queueing k _ _ _ ht => exact ⟨_, ht⟩
  | entered k _ _ _ ht => exact ⟨_, ht⟩

/-- The registry has no part in the next step, or is forgotten with it. -/
theorem Unbegun.step (hp : Frame.startsWith p su.driver.harness.pathStart = true) (hw : Unbegun p w) :
    ∃ v, (∀ g, step? su { w with registry := g } = some v) ∨
      (Unbegun p v ∧ ∀ g, step? su { w with registry := g } = some { v with registry := g }) := by
  obtain ⟨hready, hmain, hs⟩ := hw
  cases hs with
  | arriving hrun hyield hhold ht =>
    by_cases ha : w.allowance = 0
    · refine ⟨{ w with running := none, yielding := [0] }, .inr ⟨⟨hready, hmain, .standing rfl rfl hhold ht⟩,
        fun g => ?_⟩⟩
      simp [step?, hrun, runTask, task?, ht, Task.start, Frame.run, Frame.runLoad, ha, standBack, hyield, apply,
        modifyTask]
    · refine ⟨{ w with
        lock := (w.lock.arrive 0).2
        tasks := [.start [.load p (.queueing w.lock.tickets)]] },
        .inr ⟨⟨hready, hmain, .queueing w.lock.tickets hrun hyield (by simp [Lock.arrive, hhold]) rfl⟩,
          fun g => ?_⟩⟩
      simp [step?, hrun, runTask, task?, ht, Task.start, Frame.run, Frame.runLoad, ha, Lock.arrive, hhold, apply,
        modifyTask]
  | standing hrun hyield hhold ht =>
    refine ⟨{ w with running := some 0, yielding := [], allowance := fullAllowance },
      .inr ⟨⟨hready, hmain, .arriving rfl rfl hhold ht⟩, fun g => ?_⟩⟩
    simp [step?, hrun, hready, nextRound?, hmain, hyield, wakeYielding, wakeAll, wake, giveTurn]
  | queueing k hrun hyield hhold ht =>
    refine ⟨{ w with allowance := w.allowance - 1, tasks := [.start [.load p (.entered k)]] },
      .inr ⟨⟨hready, hmain, .entered k hrun hyield hhold rfl⟩, fun g => ?_⟩⟩
    simp [step?, hrun, runTask, task?, ht, Task.start, Frame.run, Frame.runLoad, hhold, spend, apply, modifyTask]
  | entered k hrun hyield hhold ht =>
    have begun (st : List Frame) (hst : (if su.loader.delayMs = 0 then [] else [Frame.sleep su.loader.delayMs]) ++
        [.load p (.loading k)] = st) (g : Registry Test) : step? su { w with registry := g } =
        some { w.append .testStart p with registry := .empty, tasks := [.start st] } := by
      subst hst
      split_ifs with hd <;>
        simp [step?, hrun, runTask, task?, ht, Task.start, Frame.run, Frame.runLoad, hp, hd, append, Registry.reset,
          apply, modifyTask]
    exact ⟨_, .inl (begun _ rfl)⟩

/-- Two worlds with the same load, and at most with different registries that nobody has looked at. -/
inductive Twins (p : String) : World → World → Prop
  | same (w : World) : Twins p w w
  | early {w : World} (g g' : Registry Test) : Unbegun p w →
      Twins p { w with registry := g } { w with registry := g' }

theorem Twins.step (hp : Frame.startsWith p su.driver.harness.pathStart = true) (ht : Twins p w v) :
    (w.step? su = none ∧ v.step? su = none) ∨
      ∃ w' v', w.step? su = some w' ∧ v.step? su = some v' ∧ Twins p w' v' := by
  cases ht with
  | same =>
    cases hs : w.step? su with
    | none => exact .inl ⟨rfl, rfl⟩
    | some w' => exact .inr ⟨w', w', rfl, rfl, .same w'⟩
  | early g g' hw =>
    obtain ⟨u, hu | ⟨hu, hstep⟩⟩ := hw.step hp
    · exact .inr ⟨u, u, hu g, hu g', .same u⟩
    · exact .inr ⟨_, _, hstep g, hstep g', .early g g' hu⟩

theorem Twins.tasks (ht : Twins p w v) : w.tasks = v.tasks := by
  cases ht <;> rfl

theorem Twins.running (ht : Twins p w v) : w.running = v.running := by
  cases ht <;> rfl

end World

/-! Two worlds, each with a history of its own -/

theorem Act.started?_after (m : Option Nat) (w v v' : World) (h : Prior) :
    Act.started? ⟨m.map h.task, w.after h, v'⟩ = Act.started? ⟨m, w, v⟩ := by
  cases m with
  | none => rfl
  | some t =>
    simp only [started?, activity?, Option.map_some, Option.bind_some, World.getElem?_core, World.task?_after]
    cases w.task? t with
    | none => rfl
    | some x =>
      simp only [Option.map_some, Option.bind_some, Task.activity, Task.after]
      rcases hs : x.stack with _ | ⟨f, rest⟩
      · rfl
      · cases f with
        | pass cur queue => cases queue <;> cases x.returned <;> rfl
        | _ => rfl

/-- Worlds that differ only by what is behind them, and by registries that nobody has looked at. -/
inductive Kin (p : String) (rule : Step → Bool) (h k : Prior) : World → World → Prop
  | of {u u' : World} : u.Twins p u' → 0 < u.tasks.length → u.Observes rule → u'.Observes rule →
      Kin p rule h k (u.after h) (u'.after k)

theorem Setup.Heedless.rules (hsu : su.Heedless safe free p) :
    Rules su (Step.heedless safe free) (Step.heedless safe free) where
  path _ := rfl
  paths _ := rfl
  navigates := ⟨fun _ => by simp [Step.heedless, Step.unread, Step.refers],
    fun _ => by simp [Step.heedless, Step.unread, Step.refers]⟩
  scripts := hsu.scripts

theorem World.Resting.spared (hw : w.Resting) (safe : String → Bool) (free : Bool) :
    (hw.prior free).Spared (Step.heedless safe free) := by
  intro s hs
  obtain ⟨hunread, hfree⟩ := Step.unread_of_heedless hs
  exact ⟨hunread, fun hn => by simp [prior, hfree hn]⟩

theorem World.Observes.step?_after {rule : Step → Bool} (hw : w.Observes rule) (hpos : 0 < w.tasks.length)
    (hr : h.Spared rule) : (w.after h).step? su = (w.step? su).map (·.after h) :=
  World.step?_after hr hpos fun t x hx f hf => hw.frames t x.activity (by rw [World.getElem?_core, hx]; rfl) f hf

namespace Kin

section

variable {rule : Step → Bool} (hp : Frame.startsWith p su.driver.harness.pathStart = true) (hr : Rules su rule rule)
  (hinfo : ∀ msg, rule (.info msg) = true) (hh : h.Spared rule) (hh' : k.Spared rule)

include hp hr hinfo hh hh'

/-- What happens next happens in both worlds, and the same test is started if any. -/
theorem step (hk : Kin p rule h k w v) :
    (w.step? su = none ∧ v.step? su = none) ∨
      ∃ w' v', w.step? su = some w' ∧ v.step? su = some v' ∧ Kin p rule h k w' v' ∧
        Act.started? ⟨w.running, w, w'⟩ = Act.started? ⟨v.running, v, v'⟩ := by
  cases hk with
  | @of u u' ht hpos hu hu' =>
    have hpos' : 0 < u'.tasks.length := ht.tasks ▸ hpos
    rw [hu.step?_after hpos hh, hu'.step?_after hpos' hh']
    rcases ht.step hp with ⟨h1, h2⟩ | ⟨w', v', h1, h2, ht'⟩
    · exact .inl ⟨by rw [h1]; rfl, by rw [h2]; rfl⟩
    · have hn : Next su (fun _ => False) u u.running w' := World.next_of_step? h1
      have hlen := hn.table.1
      have hstarted : Act.started? ⟨u.running, u, w'⟩ = Act.started? ⟨u'.running, u', v'⟩ := by
        simp only [Act.started?, Act.activity?, World.core, ht.tasks, ht.running]
      refine .inr ⟨w'.after h, v'.after k, by rw [h1]; rfl, by rw [h2]; rfl,
        .of ht' (by omega) (hu.step hr hinfo h1) (hu'.step hr hinfo h2), ?_⟩
      exact (Act.started?_after u.running u w' _ h).trans
        (hstarted.trans (Act.started?_after u'.running u' v' _ k).symm)

theorem run (n : Nat) (hk : Kin p rule h k w v) :
    Kin p rule h k (w.afterSteps su n) (v.afterSteps su n) ∧ started (w.actsOf su n) = started (v.actsOf su n) := by
  induction n generalizing w v with
  | zero => exact ⟨hk, rfl⟩
  | succ n ih =>
    rcases hk.step hp hr hinfo hh hh' with ⟨h1, h2⟩ | ⟨w', v', h1, h2, hk', hstarted⟩
    · simp only [World.afterSteps, World.actsOf, h1, h2]
      exact ⟨hk, trivial⟩
    · obtain ⟨hkin, hacts⟩ := ih hk'
      unfold started at hacts ⊢
      simp only [World.afterSteps, World.actsOf, h1, h2, List.filterMap_cons, hstarted, hacts]
      exact ⟨hkin, trivial⟩

end

end Kin

/-- A pass was given up in its task. -/
def Demo.cutShort : World :=
  (world [.steps .hidden [] none [.addTest "long" [.info "begun", .sleep 1000] none false, .spawn [.run] 0, .sleep 10,
    .abort 0, .yield]] []).afterSteps setup 25

set_option maxRecDepth 10000 in
theorem Demo.alike : (world [] []).Alike false cutShort := ⟨by rfl, by decide +kernel, nofun⟩

end PageTest
