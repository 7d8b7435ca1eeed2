import PageTest.Proofs.Runs.Errand
import PageTest.Proofs.Signals.Fired

/-! What a turn is made of. A frame changes the world by strokes, each of which touches one of the things by
which tasks depend on each other: a task is started or asked to end, a timer is set, the page takes a step.
What is to hold of every turn is shown of the strokes. -/

namespace PageTest

namespace Frame

/-- The tasks whose end a frame waits for. -/
def awaited : Frame → List Nat
  | .join t => [t]
  | .drive d _ => [d.load]
  | _ => []

/-- The listener that a frame waits for. -/
def listener? : Frame → Option Nat
  | .waitLoad _ l => l
  | _ => none

/-- The tasks that a frame can point at: those that it waits for, and those that have a handle. -/
def Knows (f : Frame) (w : World) (t : Nat) : Prop := t ∈ f.awaited ∨ some t ∈ w.handles

end Frame

/-- The part of a world by which tasks depend on each other. -/
structure Rota where
  now : Nat
  tasks : List Task
  running : Option Nat
  ready : List Nat
  mainReady : Bool
  yielding : List Nat
  timers : List (Nat × Nat)
  handles : List (Option Nat)
  listeners : List Listener
  slots : List (Option Nat)

def World.rota (w : World) : Rota :=
  ⟨w.now, w.tasks, w.running, w.ready, w.mainReady, w.yielding, w.timers, w.handles,
    w.scene.page.listeners, w.scene.slots⟩

/-- One change of the world by the task `self`, with the signals that are fired in it. It points at no
tasks but those that it knows. -/
inductive Stroke (self : Nat) (known : Nat → Prop) (w : World) : List Signal → World → Prop
  | still {v : World} : v.rota = w.rota → Stroke self known w [] v
  | leaveLock (ticket : Nat) : Stroke self known w [] (w.leaveLock ticket)
  | page {σ : List Signal} {s : Scene} : w.scene.Tells σ s → Stroke self known w σ (w.withScene s)
  | listen (target : SignalTarget) (event : String) : Stroke self known w []
      { w with scene := { w.scene with page := (w.scene.page.listen target event).2 } }
  | load (path : String) : Stroke self known w [] (w.start [.load path .arriving]).2
  | spawn (body : List Step) (after : Nat) : Stroke self known w [] (w.spawn body after).1
  | takeBack (i : Nat) : Stroke self known w [] { w with handles := w.handles.set i none }
  | cancel {t : Nat} : known t → Stroke self known w [] (w.cancel t)
  | waitFor {t : Nat} : known t → Stroke self known w [] (w.waitFor self t)
  | standBack : Stroke self known w [] (w.standBack self)
  | clearTimer : Stroke self known w [] (w.clearTimer self)
  | setTimer {due : Nat} : w.now < due → Stroke self known w [] (w.setTimer self due)

/-- Strokes in a row. Only the first one fires signals. -/
inductive Strokes (self : Nat) (known : Nat → Prop) (w : World) : List Signal → World → Prop
  | one {σ : List Signal} {v : World} : Stroke self known w σ v → Strokes self known w σ v
  | more {σ : List Signal} {v u : World} :
      Strokes self known w σ v → Stroke self known v [] u → Strokes self known w σ u

variable {self : Nat} {known : Nat → Prop} {w v u : World} {σ : List Signal}

theorem Strokes.still (h : v.rota = w.rota) : Strokes self known w [] v := .one (.still h)

theorem Strokes.refl (w : World) : Strokes self known w [] w := .still rfl

theorem Strokes.kept (h : Strokes self known w σ v) (hu : u.rota = v.rota) : Strokes self known w σ u :=
  h.more (.still hu)

/-! Steps -/

namespace World

def inputSignals (w : World) (found : List Nat) (e : Place) (fired : Scene → Nat → List Signal) : List Signal :=
  match w.place found e with
  | .error _ => []
  | .ok h => fired w.scene h

/-- The signals that a step of a body fires before it is over or has to wait. -/
def stepSignals (su : Setup) (w : World) (found : List Nat) : Step → List Signal
  | .page s => w.scene.signalsOf w.now su.nesting none s
  | .setText e text => w.inputSignals found e fun s h => s.setTextSignals w.now su.nesting h text
  | .clickCheckbox e => w.inputSignals found e fun s h => s.clickCheckboxSignals w.now su.nesting h
  | .click e => w.inputSignals found e fun s h => s.clickSignals w.now su.nesting h
  | .attempt s => stepSignals su w found s
  | _ => []

theorem strokes_input (w : World) (found : List Nat) (e : Place) {act : Scene → Nat → Scene × Outcome}
    {fired : Scene → Nat → List Signal} (h : ∀ h, w.scene.Tells (fired w.scene h) (act w.scene h).1) :
    Strokes self known w (w.inputSignals found e fired) (w.input found e act).1 := by
  unfold input inputSignals
  cases w.place found e with
  | error e => exact .refl w
  | ok i => exact .one (.page (h i))

theorem strokes_inspect {β : Type} (w : World) (found : List Nat) (e : Place)
    (look : Page Action → Nat → Except PageError β) (entry : β → LogEntry) :
    Strokes self known w [] (w.inspect found e look entry).1 := by
  unfold inspect
  split
  · exact .refl w
  · exact .still rfl

theorem strokes_register (w : World) (t : Test) : Strokes self known w [] (w.register t).1 := by
  unfold register
  split
  · exact .refl w
  · exact .still rfl

theorem strokes_drive {su : Setup} {path : String} {f : Frame} (h : w.drive su path = .ok (v, f)) :
    Stroke self known w [] v := by
  unfold drive at h
  split_ifs at h
  obtain ⟨rfl, -⟩ := Prod.mk.inj (Except.ok.inj h)
  exact .load path

/-- A step that goes on in a frame leaves no listener with it, and no task but a known or a new one. -/
theorem strokes_begin (su : Setup) (self : Nat) (known : Nat → Prop) (found : List Nat) (w : World) (s : Step)
    (hk : ∀ t, some t ∈ w.handles → known t) :
    Strokes self known w (w.stepSignals su found s) (w.begin su found s).1 ∧
      ∀ f, (w.begin su found s).2 = .within f →
        f.listener? = none ∧ ∀ t ∈ f.awaited, known t ∨ w.tasks.length ≤ t := by
  have handle {i t : Nat} {v : World} (h : w.takeHandle i = (some t, v)) :
      known t ∧ Stroke self known w [] v := by
    obtain ⟨ht, rfl⟩ := takeHandle_some h
    exact ⟨hk t (List.mem_of_getElem? ht), .takeBack i⟩
  fun_induction World.begin su found w s
  case case1 s sc o h =>
    have hs := Scene.tells_perform w.now su.nesting none w.scene s
    rw [h] at hs
    exact ⟨.one (.page hs), by simp⟩
  case case7 | case8 | case9 =>
    refine ⟨strokes_inspect _ _ _ _ _, ?_⟩
    unfold inspect
    split <;> simp [refuse, done]
  case case14 e text =>
    refine ⟨strokes_input w found e fun h => Scene.tells_setText w.now su.nesting w.scene h text, ?_⟩
    unfold input
    split <;> simp [refuse]
  case case15 e =>
    refine ⟨strokes_input w found e fun h => Scene.tells_clickCheckbox w.now su.nesting w.scene h, ?_⟩
    unfold input
    split <;> simp [refuse]
  case case16 e =>
    refine ⟨strokes_input w found e fun h => Scene.tells_bubble w.now su.nesting w.scene h "click", ?_⟩
    unfold input
    split <;> simp [refuse]
  case case17 | case18 =>
    refine ⟨strokes_register _ _, ?_⟩
    unfold register
    split <;> simp [done]
  case case34 body after => exact ⟨.one (.spawn body after), by simp [spawn, reply]⟩
  case case35 i t v h =>
    refine ⟨.one (handle h).2, ?_⟩
    rintro f hf
    cases hf
    exact ⟨rfl, by simpa [Frame.awaited] using .inl (handle h).1⟩
  case case37 i t v h =>
    refine ⟨(Strokes.one (handle h).2).more (.cancel (handle h).1), ?_⟩
    rintro f hf
    cases hf
    exact ⟨rfl, by simpa [Frame.awaited] using .inl (handle h).1⟩
  case case36 i v h | case38 i v h =>
    obtain rfl := takeHandle_none h
    exact ⟨.refl _, by simp [reply]⟩
  case case40 path v f h =>
    refine ⟨.one (strokes_drive h), ?_⟩
    rintro g hg
    cases hg
    obtain ⟨-, -, rfl⟩ := drive_eq_ok h
    exact ⟨rfl, by simp [Frame.awaited]⟩
  case case44 s ih => exact ih
  case case25 | case26 | case27 | case29 | case30 | case32 | case33 | case41 =>
    exact ⟨.still rfl, by rintro f hf; cases hf; exact ⟨rfl, by simp [Frame.awaited]⟩⟩
  all_goals exact ⟨.still rfl, by simp [reply, done, refuse]⟩

end World

/-! Frames -/

/-- What comes of a frame's turn: strokes, and frames that wait for what the frame itself waits for, for
tasks that it knows, or for what is new. -/
structure Frame.Strikes (i : Nat) (w : World) (f : Frame) (σ : List Signal) (p : World × Move) : Prop where
  strokes : Strokes i (f.Knows w) w σ p.1
  awaited : ∀ g ∈ p.2.frames, ∀ t ∈ g.awaited, f.Knows w t ∨ w.tasks.length ≤ t
  listeners : ∀ g ∈ p.2.frames, ∀ l, g.listener? = some l → f.listener? = some l ∨
    (w.scene.page.listeners.length ≤ l ∧ l < p.1.scene.page.listeners.length)

namespace Frame

variable {f : Frame} {su : Setup}

/-- The signals that a frame fires with its turn. -/
def signals (su : Setup) (w : World) : Frame → Option Outcome → List Signal
  | .steps _ found _ (s :: _), none => w.stepSignals su found s
  | _, _ => []

/-- The frame leaves only frames that wait for no more than itself. -/
theorem Strikes.own {m : Move} (h : Strokes self (f.Knows w) w σ v)
    (hm : ∀ g ∈ m.frames, (∀ t ∈ g.awaited, t ∈ f.awaited) ∧ ∀ l, g.listener? = some l → f.listener? = some l) :
    f.Strikes self w σ (v, m) :=
  ⟨h, fun g hg t ht => .inl (.inl ((hm g hg).1 t ht)), fun g hg l hl => .inl ((hm g hg).2 l hl)⟩

/-- The frame changes nothing that others depend on. -/
theorem Strikes.still {m : Move} (h : v.rota = w.rota)
    (hm : ∀ g ∈ m.frames, (∀ t ∈ g.awaited, t ∈ f.awaited) ∧ ∀ l, g.listener? = some l → f.listener? = some l) :
    f.Strikes self w [] (v, m) := .own (.still h) hm

theorem rota_note (w : World) (who : Origin) (what : Remark) : (w.note who what).rota = w.rota := by
  unfold World.note Scene.note
  split_ifs <;> rfl

theorem rota_noteFault (w : World) (who : Origin) (s : Step) (e : Fault) : (noteFault w who s e).rota = w.rota := by
  unfold noteFault
  split
  · exact (rota_note _ _ _).trans (rota_note _ _ _)
  · exact (rota_note _ _ _).trans (rota_note _ _ _)
  · exact rota_note _ _ _

theorem strikes_stepOver (h : Strokes self (f.Knows w) w σ v) (who : Origin) (found : List Nat) (s : Step)
    (rest : List Step) (o : Outcome) : f.Strikes self w σ (stepOver v who found s rest o) := by
  cases o with
  | value r => exact .own (h.kept (rota_note _ _ _)) (by simp [Move.frames, Frame.awaited, listener?])
  | fault e =>
    refine .own (h.kept (rota_noteFault v who s e)) ?_
    split_ifs <;> simp [Move.frames, Frame.awaited, listener?]
  | panic p => exact .own h (by simp [Move.frames])

theorem strikes_runSteps (su : Setup) (w : World) (who : Origin) (found : List Nat) (cur : Option Step)
    (rest : List Step) : (Frame.steps who found cur rest).Strikes self w (signals su w (.steps who found cur rest) none)
      (runSteps su w who found rest) := by
  cases rest with
  | nil => exact .still rfl (by simp [Move.frames])
  | cons s rest =>
    have handle (t : Nat) (ht : some t ∈ w.handles) : (Frame.steps who found cur (s :: rest)).Knows w t := .inr ht
    obtain ⟨hs, hf⟩ := World.strokes_begin su self _ found w s handle
    rcases hb : w.begin su found s with ⟨v, b⟩
    rw [hb] at hs hf
    simp only [runSteps, hb]
    rcases b with o | g
    · exact strikes_stepOver hs who found s rest o
    · obtain ⟨hl, ha⟩ := hf g rfl
      exact ⟨hs, List.forall_mem_cons.2 ⟨ha, by simp [Frame.awaited]⟩,
        List.forall_mem_cons.2 ⟨by simp [hl], by simp [listener?]⟩⟩

theorem strikes_leaveLoad (h : Strokes self (f.Knows w) w [] v) (k : Nat) (o : Outcome) :
    f.Strikes self w [] (leaveLoad v k o) := .own (h.more (.leaveLock k)) (by simp [Move.frames])

theorem strikes_failLoad (w : World) (k : Nat) (reason : String) :
    f.Strikes self w [] (failLoad w k reason) := by
  have noted : Strokes self (f.Knows w) w [] (w.append .fail reason) := .still rfl
  exact strikes_leaveLoad noted k _

theorem strikes_runLoad (su : Setup) (w : World) (path : String) (phase : LoadPhase) :
    f.Strikes self w [] (runLoad su w self path phase) := by
  cases phase with
  | arriving =>
    simp only [runLoad]
    split_ifs
    · exact .own (.one .standBack) (by simp [Move.frames, Frame.awaited, listener?])
    · exact .still rfl (by simp [Move.frames, Frame.awaited, listener?])
  | queueing k =>
    simp only [runLoad]
    split_ifs <;> exact .still rfl (by simp [Move.frames, Frame.awaited, listener?])
  | entered k =>
    simp only [runLoad]
    split_ifs
    · exact .still rfl (by simp [Move.frames, Frame.awaited, listener?])
    · exact .still rfl (by simp [Move.frames, Frame.awaited, listener?])
    · exact strikes_failLoad w k _
  | loading k =>
    simp only [runLoad]
    split_ifs
    · exact strikes_leaveLoad (.refl w) k _
    · split
      · exact strikes_failLoad w k _
      · exact .still rfl (by simp [Move.frames, Frame.awaited, listener?])
  | registering k =>
    simp only [runLoad]
    split <;> exact .still rfl (by simp [Move.frames, Frame.awaited, listener?])
  | running k =>
    have noted : Strokes self (f.Knows w) w [] (w.append .testEnd path) := .still rfl
    exact strikes_leaveLoad noted k _

theorem strikes_resumeLoad (w : World) (path : String) (phase : LoadPhase) (o : Outcome) :
    f.Strikes self w [] (resumeLoad w path phase o) := by
  unfold resumeLoad
  split
  · exact strikes_failLoad w _ _
  · exact strikes_failLoad w _ _
  · exact .still rfl (by simp [Move.frames, Frame.awaited, listener?])
  · split
    · exact strikes_leaveLoad (.refl w) _ _
    · exact .still rfl (by simp [Move.frames])

/-- A driver waits for its load and for nobody else. -/
theorem strikes_runDrive (su : Setup) (w : World) (d : Drive) (phase : DrivePhase) :
    (Frame.drive d phase).Strikes self w [] (runDrive su w self d phase) := by
  have load : (Frame.drive d phase).Knows w d.load := .inl (by simp [Frame.awaited])
  have joined {u : World} {e : Drive} (how : TaskReport) (he : e.load = d.load)
      (hu : Strokes self ((Frame.drive d phase).Knows w) w [] u) :
      (Frame.drive d phase).Strikes self w [] (joined u e how) := by
    unfold Frame.joined
    split_ifs
    · exact .own (hu.kept rfl) (by simp [Move.frames, Frame.awaited, listener?, he])
    · exact .own hu (by simp [Move.frames])
  cases phase with
  | look fin =>
    simp only [runDrive]
    have hv : Strokes self ((Frame.drive d (.look fin)).Knows w) w [] (drainInto w d).1 := .still rfl
    have he : (drainInto w d).2.load = d.load := rfl
    generalize (drainInto w d).1 = v at hv ⊢
    generalize (drainInto w d).2 = e at he ⊢
    rw [← he] at load
    split
    · exact .own hv (by simp [Move.frames])
    · split
      · exact .own (hv.more (.waitFor load)) (by simp [Move.frames, Frame.awaited, listener?, he])
      · split
        · exact .own ((hv.more (.cancel load)).more (.waitFor load))
            (by simp [Move.frames, Frame.awaited, listener?, he])
        · split
          · exact joined _ he hv
          · have asked := hv.more (.waitFor load)
            split
            · exact .own (asked.more .standBack) (by simp [Move.frames, Frame.awaited, listener?, he])
            · have later : (v.waitFor self e.load).now < v.now + su.driver.pollIntervalMs := by
                simp [World.waitFor, World.modifyTask]
                omega
              exact .own (asked.more (.setTimer later)) (by simp [Move.frames, Frame.awaited, listener?, he])
  | watch due =>
    simp only [runDrive]
    split
    · split_ifs
      · exact .still rfl (by simp [Move.frames, Frame.awaited, listener?])
      · exact joined _ rfl (.one .clearTimer)
    · split_ifs <;> exact .still rfl (by simp [Move.frames, Frame.awaited, listener?])
  | settling | stopping =>
    simp only [runDrive]
    split <;> exact .still rfl (by simp [Move.frames, Frame.awaited, listener?])

/-- Who waits for the page asks it for a new listener, or goes on waiting for its own. -/
theorem strikes_runWaitLoad (su : Setup) (w : World) (loaded : Bool) (l : Option Nat) :
    (Frame.waitLoad loaded l).Strikes self w [] (runWaitLoad su w loaded l) := by
  have asks (target : SignalTarget) (event : String) : (Frame.waitLoad loaded none).Strikes self w []
      ({ w with scene := { w.scene with page := (w.scene.page.listen target event).2 } },
        .goOn (.waitLoad loaded (some (w.scene.page.listen target event).1))) :=
    ⟨.one (.listen target event), by simp [Move.frames, Frame.awaited],
      by simp [Move.frames, listener?, Page.listen]⟩
  cases l with
  | none =>
    simp only [runWaitLoad]
    split_ifs
    · exact .still rfl (by simp [Move.frames, Frame.awaited, listener?])
    · exact asks .window "pageshow"
    · exact asks .frame "load"
  | some l =>
    simp only [runWaitLoad]
    split_ifs <;> exact .still rfl (by simp [Move.frames, Frame.awaited, listener?])

theorem strikes_run (su : Setup) (w : World) (self : Nat) (f : Frame) :
    f.Strikes self w (f.signals su w none) (f.run su w self) := by
  cases f with
  | steps who found cur rest => exact strikes_runSteps su w who found cur rest
  | sleep ms =>
    simp only [run, runSleep]
    split_ifs
    · exact .own (.one .standBack) (by simp [Move.frames, Frame.awaited, listener?])
    · exact .still rfl (by simp [Move.frames])
    · exact .own (.one (.setTimer (by omega))) (by simp [Move.frames, Frame.awaited, listener?])
  | pause due =>
    simp only [run, runPause]
    split_ifs <;> exact .still rfl (by simp [Move.frames, Frame.awaited, listener?])
  | yield yielded =>
    simp only [run, runYield]
    split_ifs
    · exact .still rfl (by simp [Move.frames])
    · exact .own (.one .standBack) (by simp [Move.frames, Frame.awaited, listener?])
  | poll c msg wait polls =>
    simp only [run, runPoll]
    split
    · exact .still rfl (by simp [Move.frames])
    · split
      · exact .still rfl (by simp [Move.frames])
      · exact .still rfl (by simp [Move.frames])
      · exact .still rfl (by simp [Move.frames])
      · split <;> exact .still rfl (by simp [Move.frames, Frame.awaited, listener?])
  | waitLoad loaded l => exact strikes_runWaitLoad su w loaded l
  | load path phase => exact strikes_runLoad su w path phase
  | pass cur queue =>
    cases queue with
    | nil => exact .still rfl (by simp [Move.frames])
    | cons t queue =>
      simp only [run, runPass]
      split <;> exact .still rfl (by simp [Move.frames, Frame.awaited, listener?])
  | join task =>
    have asked : (Frame.join task).Knows w task := .inl (by simp [Frame.awaited])
    simp only [run, runJoin]
    split
    · split_ifs
      · exact .own (.one .standBack) (by simp [Move.frames, Frame.awaited, listener?])
      · exact .still rfl (by simp [Move.frames])
    · exact .own (.one (.waitFor asked)) (by simp [Move.frames, Frame.awaited, listener?])
  | drive d phase => exact strikes_runDrive su w d phase
  | driveAll start rest results =>
    cases rest with
    | nil => exact .still rfl (by simp [Move.frames])
    | cons path rest =>
      simp only [run, runDriveAll]
      split
      · exact .still rfl (by simp [Move.frames])
      next v g h =>
        obtain ⟨-, -, hg⟩ := World.drive_eq_ok h
        exact ⟨.one (World.strokes_drive h), by simp [Move.frames, Frame.awaited, hg],
          by simp [Move.frames, listener?, hg]⟩

theorem strikes_resume (w : World) (f : Frame) (o : Outcome) : f.Strikes self w [] (f.resume w o) := by
  unfold resume
  split
  · exact strikes_stepOver (.refl w) _ _ _ _ o
  · unfold resumePass
    split <;> exact .still rfl (by simp [Move.frames, Frame.awaited, listener?])
  · exact strikes_resumeLoad w _ _ o
  · exact .still rfl (by simp [Move.frames, Frame.awaited, listener?])
  · exact .still rfl (by simp [Move.frames, Frame.awaited, listener?])
  · exact .still rfl (by simp [Move.frames, Frame.awaited, listener?])
  · exact .still rfl (by simp [Move.frames])

/-- What the frame on top does with its turn. -/
theorem strikes_act (su : Setup) (w : World) (self : Nat) (f : Frame) (ret : Option Outcome) :
    f.Strikes self w (f.signals su w ret) (f.act su w self ret) := by
  cases ret with
  | none => exact strikes_run su w self f
  | some o =>
    have silent : f.signals su w (some o) = [] := by
      unfold signals
      split <;> simp_all
    rw [silent]
    exact strikes_resume w f o

end Frame

end PageTest
