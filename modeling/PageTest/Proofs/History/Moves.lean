import PageTest.Proofs.History.Pages
import PageTest.Proofs.Polling.Blind

/-! What a task does with its turn does not depend on the history, if it does not look into the log. -/

namespace PageTest

/-- The step refers to what a session keeps for itself: the numbers of the tasks that can be waited for, and the last
report on a suite. -/
def Step.refers : Step → Bool
  | .spawn .. | .join _ | .abort _ | .writeResults => true
  | _ => false

/-- Under the rule nobody looks into the log, or refers to what the history keeps. -/
def Prior.Spared (h : Prior) (rule : Step → Bool) : Prop :=
  ∀ s, rule s = true → s.unread = true ∧ (s.refers = true → h.kept = none)

def Begun.after (b : Begun) (h : Prior) : Begun :=
  match b with
  | .over o => .over o
  | .within f => .within (f.after h)

def Move.after (m : Move) (h : Prior) : Move :=
  match m with
  | .goOn f => .goOn (f.after h)
  | .call f callee => .call (f.after h) (callee.after h)
  | .halt f => .halt (f.after h)
  | .leave o => .leave o

variable {su : Setup} {own task : Step → Bool} {w : World} {h : Prior} {self : Nat}

/-! Steps -/

namespace World

theorem place_after (w : World) (h : Prior) (found : List Nat) (e : Place) :
    (w.after h).place found e = w.place found e := by
  cases e <;> rfl

theorem input_after (hw : 0 < w.tasks.length) (found : List Nat) (e : Place)
    {act act' : Scene → Nat → Scene × Outcome}
    (ha : ∀ s i, act' (s.after h) i = Prod.map (·.after h) id (act s i)) :
    (w.after h).input found e act' = Prod.map (·.after h) (·.after h) (w.input found e act) := by
  unfold input
  rw [place_after]
  cases w.place found e with
  | error e => rfl
  | ok i =>
    simp only [scene_after, ha, Prod.map_fst, Prod.map_snd, withScene_after h hw]
    rfl

theorem inspect_after {β : Type} (w : World) (h : Prior) (found : List Nat) (e : Place)
    (look : Page Action → Nat → Except PageError β) (entry : β → LogEntry) :
    (w.after h).inspect found e look entry = Prod.map (·.after h) (·.after h) (w.inspect found e look entry) := by
  simp only [inspect, place_after, scene_after, Scene.page_after]
  cases (w.place found e).bind (look w.scene.page) with
  | error e => rfl
  | ok b =>
    simp only [enter_after]
    rfl

theorem register_after (w : World) (h : Prior) (t : Test) :
    (w.after h).register t = Prod.map (·.after h) (·.after h) (w.register t) := by
  simp only [register, registry_after]
  cases w.registry.register t <;> rfl

theorem spawn_after (hk : h.kept = none) (hw : 0 < w.tasks.length) (body : List Step) (after : Nat) :
    (w.after h).spawn body after = Prod.map (·.after h) (·.after h) (w.spawn body after) := by
  have hlen : (w.after h).handles.length = w.handles.length := by simp [World.after, hk]
  have hs (stack : List Frame) (hst : stack.map (·.after h) = stack) :
      (w.after h).start stack = (h.task (w.start stack).1, (w.start stack).2.after h) := by
    have := start_after h hw stack
    rwa [hst] at this
  simp only [spawn, hlen]
  rw [hs]
  · simp [World.after, hk, Prod.map, reply, Begun.after]
  · split_ifs <;> rfl

theorem begin_after (su : Setup) (hw : 0 < w.tasks.length) (found : List Nat) {s : Step}
    (hs : s.bare.unread = true) (hk : s.bare.refers = true → h.kept = none) :
    (w.after h).begin su found s = Prod.map (·.after h) (·.after h) (w.begin su found s) := by
  have hbare := s.bare_attempt
  rw [begin_bare, begin_bare su found w]
  generalize s.bare = b at hs hk hbare
  cases b with
  | attempt s => exact absurd rfl (hbare s)
  | logs | logLen | runPath | runPaths => simp [Step.unread] at hs
  | page s =>
    simp only [begin, now_after, scene_after, Scene.perform_after, Prod.map_fst, Prod.map_snd, withScene_after h hw]
    rfl
  | ok | is | isnot | info =>
    simp only [begin, enter_after]
    rfl
  | isDisplay | isValue | okChecked => exact inspect_after w h _ _ _ _
  | setText e text => exact input_after hw found e fun s i => Scene.setText_after _ _ s i text
  | clickCheckbox e => exact input_after hw found e fun s i => Scene.clickCheckbox_after _ _ s i
  | click e => exact input_after hw found e fun s i => Scene.bubble_after _ _ s i "click"
  | addTest | addFunction => exact register_after w h _
  | spawn body after => exact spawn_after (hk rfl) hw body after
  | append kind msg =>
    simp only [begin]
    split
    · simp only [append_after]
      rfl
    · rfl
  | waitShown e msg wait =>
    simp only [begin, place_after]
    split <;> rfl
  | run =>
    simp only [begin, registry_after]
    split <;> rfl
  | writeResults =>
    have hsuite : (w.after h).suite = w.suite := by simp [after, hk rfl]
    simp only [begin, hsuite]
    split_ifs <;> rfl
  | join i =>
    simp only [begin, takeHandle_after w (hk rfl)]
    rcases w.takeHandle i with ⟨_ | t, v⟩ <;> rfl
  | abort i =>
    simp only [begin, takeHandle_after w (hk rfl)]
    rcases w.takeHandle i with ⟨_ | t, v⟩
    · rfl
    · simp only [Option.map_some, cancel_after]
      rfl
  | _ => rfl

end World

/-! Frames -/

namespace Frame

open World

theorem noteFault_after (w : World) (h : Prior) (who : Origin) (s : Step) (f : Fault) :
    noteFault (w.after h) who s f = (noteFault w who s f).after h := by
  cases who <;> simp only [noteFault, note_after]

theorem stepOver_after (w : World) (h : Prior) (who : Origin) (found : List Nat) (s : Step) (rest : List Step)
    (o : Outcome) :
    stepOver (w.after h) who found s rest o =
      Prod.map (·.after h) (·.after h) (stepOver w who found s rest o) := by
  cases o with
  | value r => simp [stepOver, note_after, Move.after, Frame.after]
  | panic p => rfl
  | fault f =>
    simp only [stepOver, noteFault_after]
    split_ifs <;> rfl

theorem runSteps_after (hr : h.Spared own) (hw : 0 < w.tasks.length) (who : Origin)
    (found : List Nat) {steps : List Step} (hs : Step.allEvery own task steps = true) :
    runSteps su (w.after h) who found steps =
      Prod.map (·.after h) (·.after h) (runSteps su w who found steps) := by
  cases steps with
  | nil => rfl
  | cons s rest =>
    obtain ⟨hs, -⟩ := Bool.and_eq_true_iff.1 hs
    obtain ⟨hunread, hrefers⟩ := hr _ (Step.own_of_every hs)
    simp only [runSteps, begin_after su hw found hunread hrefers]
    rcases w.begin su found s with ⟨v, o | f⟩
    · exact stepOver_after v h who found s rest o
    · rfl

theorem runPoll_after (w : World) (h : Prior) (c : Condition) (msg : String) (wait : WaitOptions) (polls : Nat) :
    runPoll (w.after h) c msg wait polls =
      Prod.map (·.after h) (·.after h) (runPoll w c msg wait polls) := by
  simp only [runPoll, append_after, scene_after, Scene.page_after]
  split
  · rfl
  · split
    · rfl
    · rfl
    · rfl
    · split_ifs <;> rfl

theorem runWaitLoad_after (su : Setup) (w : World) (h : Prior) (loaded : Bool) (l : Option Nat) :
    runWaitLoad su (w.after h) loaded l =
      Prod.map (·.after h) (·.after h) (runWaitLoad su w loaded l) := by
  cases l with
  | none =>
    simp only [runWaitLoad, scene_after, Scene.page_after]
    split_ifs <;> rfl
  | some l =>
    have spent : (w.after h).spend = w.spend.after h := rfl
    simp only [runWaitLoad, scene_after, Scene.page_after, spent, append_after]
    split_ifs <;> rfl

theorem runJoin_after (w : World) (h : Prior) (self t : Nat) :
    runJoin (w.after h) (h.task self) (h.task t) =
      Prod.map (·.after h) (·.after h) (runJoin w self t) := by
  simp only [runJoin, ended?_after, waitFor_after]
  rw [allowance_after]
  split
  · split_ifs <;> rfl
  · rfl

theorem abortPass_after (w : World) (h : Prior) (f : Failure) :
    abortPass (w.after h) f = Prod.map (·.after h) (·.after h) (abortPass w f) := by
  simp only [abortPass, append_after]
  rfl

theorem runPass_after (w : World) (h : Prior) (queue : List Test) :
    runPass (w.after h) queue = Prod.map (·.after h) (·.after h) (runPass w queue) := by
  cases queue with
  | nil => rfl
  | cons t queue =>
    simp only [runPass, append_after]
    split
    · exact abortPass_after _ h _
    · rfl

theorem resumePass_after (w : World) (h : Prior) (t : Test) (queue : List Test) (o : Outcome) :
    resumePass (w.after h) t queue o = Prod.map (·.after h) (·.after h) (resumePass w t queue o) := by
  cases o with
  | value r =>
    simp only [resumePass, append_after]
    rfl
  | fault f => exact abortPass_after w h _
  | panic p => exact abortPass_after w h _

theorem leaveLoad_after (w : World) (h : Prior) (k : Nat) (o : Outcome) :
    leaveLoad (w.after h) (k + h.tickets) o = Prod.map (·.after h) (·.after h) (leaveLoad w k o) := by
  simp only [leaveLoad, leaveLock_after]
  rfl

theorem failLoad_after (w : World) (h : Prior) (k : Nat) (reason : String) :
    failLoad (w.after h) (k + h.tickets) reason = Prod.map (·.after h) (·.after h) (failLoad w k reason) := by
  simp only [failLoad, append_after]
  exact leaveLoad_after _ h k _

theorem runLoad_after (su : Setup) (w : World) (h : Prior) (self : Nat) (path : String) (phase : LoadPhase) :
    runLoad su (w.after h) (h.task self) path (phase.after h) =
      Prod.map (·.after h) (·.after h) (runLoad su w self path phase) := by
  cases phase with
  | arriving =>
    have ha : (w.after h).lock.arrive (h.task self) =
        ((w.lock.arrive self).1 + h.tickets, (w.lock.arrive self).2.after h) := by
      unfold Lock.arrive World.after Lock.after
      cases w.lock.holder <;> simp [Nat.add_right_comm]
    simp only [LoadPhase.after, runLoad, allowance_after, ha]
    split_ifs <;> rfl
  | queueing k =>
    have hk : (w.after h).lock.holder = some (k + h.tickets) ↔ w.lock.holder = some k := holder_after w.lock h k
    simp only [LoadPhase.after, runLoad, hk]
    split_ifs <;> rfl
  | entered k =>
    have hr : World.append { w.after h with registry := w.registry.reset } .testStart path =
      (World.append { w with registry := w.registry.reset } .testStart path).after h :=
      append_after { w with registry := w.registry.reset } h _ _
    simp only [LoadPhase.after, runLoad, registry_after, hr]
    split_ifs
    · rfl
    · rfl
    · exact failLoad_after w h k _
  | loading k =>
    simp only [LoadPhase.after, runLoad]
    split_ifs
    · exact leaveLoad_after w h k _
    · cases su.catalog.script? path with
      | none => exact failLoad_after w h k _
      | some s => rfl
  | registering k =>
    simp only [LoadPhase.after, runLoad, registry_after]
    cases w.registry.beginRun with
    | ok r => rfl
    | error e =>
      simp only [append_after]
      rfl
  | running k =>
    simp only [LoadPhase.after, runLoad, append_after]
    exact leaveLoad_after _ h k _

theorem resumeLoad_after (w : World) (h : Prior) (path : String) (phase : LoadPhase) (o : Outcome) :
    resumeLoad (w.after h) path (phase.after h) o =
      Prod.map (·.after h) (·.after h) (resumeLoad w path phase o) := by
  cases o with
  | value r => cases phase <;> rfl
  | fault f => cases phase with
    | arriving => rfl
    | registering k => exact failLoad_after w h k _
    | _ => exact leaveLoad_after w h _ _
  | panic p => cases phase with
    | arriving => rfl
    | registering k => exact failLoad_after w h k _
    | _ => exact leaveLoad_after w h _ _

theorem run_after (hr : h.Spared own) (hw : 0 < w.tasks.length) {f : Frame}
    (hf : f.Keeps own task) :
    (f.after h).run su (w.after h) (h.task self) = Prod.map (·.after h) (·.after h) (f.run su w self) := by
  cases f with
  | steps who found cur rest => exact runSteps_after hr hw who found hf
  | sleep ms =>
    have hset : (w.after h).setTimer (h.task self) (w.now + h.time + ms) =
        (w.setTimer self (w.now + ms)).after h := by
      rw [Nat.add_right_comm, setTimer_after]
    simp only [Frame.after, run, runSleep, now_after, hset]
    rw [allowance_after]
    split_ifs
    · rfl
    · rfl
    · simp [Move.after, Frame.after, Nat.add_right_comm]
  | pause due =>
    simp only [Frame.after, run, runPause, now_after, Nat.add_le_add_iff_right]
    split_ifs <;> rfl
  | yield yielded =>
    simp only [Frame.after, run, runYield]
    split_ifs <;> rfl
  | poll c msg wait polls => exact runPoll_after w h c msg wait polls
  | waitLoad loaded l => exact runWaitLoad_after su w h loaded l
  | load path phase => exact runLoad_after su w h self path phase
  | pass cur queue => exact runPass_after w h queue
  | join t => exact runJoin_after w h self t
  | drive d phase => exact hf.elim
  | driveAll start rest results => exact hf.elim

theorem resume_after (w : World) (h : Prior) (f : Frame) (o : Outcome) :
    (f.after h).resume (w.after h) o = Prod.map (·.after h) (·.after h) (f.resume w o) := by
  cases f with
  | steps who found cur rest =>
    cases cur with
    | none => cases o <;> rfl
    | some s => exact stepOver_after w h who found s rest o
  | pass cur queue =>
    cases cur with
    | none => cases o <;> rfl
    | some t => exact resumePass_after w h t queue o
  | load path phase => exact resumeLoad_after w h path phase o
  | poll => cases o <;> rfl
  | driveAll start rest results =>
    cases o with
    | value r => cases r <;> rfl
    | _ => rfl
  | _ => cases o <;> rfl

/-- One move. -/
theorem act_after (hr : h.Spared own) (hw : 0 < w.tasks.length) {f : Frame}
    (hf : f.Keeps own task) (ret : Option Outcome) :
    (f.after h).act su (w.after h) (h.task self) ret = Prod.map (·.after h) (·.after h) (f.act su w self ret) := by
  cases ret with
  | none => exact run_after hr hw hf
  | some o => exact resume_after w h f o

end Frame

/-! Tasks -/

namespace World

variable {t : Nat}

theorem apply_after (w : World) (h : Prior) (t : Nat) (rest : List Frame) (m : Move) :
    (w.after h).apply (h.task t) (rest.map (·.after h)) (m.after h) = (w.apply t rest m).after h := by
  have put (st : List Frame) (ret : Option Outcome) :
      (w.after h).modifyTask (h.task t) (fun x => { x with stack := st.map (·.after h), returned := ret }) =
        (w.modifyTask t fun x => { x with stack := st, returned := ret }).after h :=
    modifyTask_after w h t fun _ => rfl
  cases m with
  | goOn f => exact put (f :: rest) none
  | call f callee => exact put (callee :: f :: rest) none
  | leave o => exact put rest (some o)
  | halt f =>
    have hp := put (f :: rest) none
    rw [List.map_cons] at hp
    simp only [Move.after, apply, hp]
    generalize w.modifyTask t (fun x => { x with stack := f :: rest, returned := none }) = v
    have hrun : ({ v.after h with running := none } : World) = World.after { v with running := none } h := rfl
    have hc : ((World.task? (World.after { v with running := none } h) (h.task t)).map (·.cancelled)) =
        (World.task? { v with running := none } t).map (·.cancelled) := by
      rw [task?_after]
      cases World.task? { v with running := none } t <;> rfl
    rw [hrun, hc]
    split_ifs
    · exact cancelNow_after _ h t
    · rfl

theorem runTask_after (hr : h.Spared own) (hw : 0 < w.tasks.length)
    (hf : ∀ x, w.task? t = some x → ∀ f ∈ x.stack, f.Keeps own task) :
    (w.after h).runTask su (h.task t) = (w.runTask su t).after h := by
  have hx := task?_after w h t
  cases hw' : w.task? t with
  | none =>
    rw [hw'] at hx
    simp only [runTask, hw', hx, Option.map_none]
    rfl
  | some x =>
    rw [hw', Option.map_some] at hx
    cases hs : x.stack with
    | cons f rest =>
      have hs' : (x.after h).stack = f.after h :: rest.map (·.after h) := by simp [Task.after, hs]
      rw [runTask_frame su hw' hs, runTask_frame su hx hs', show (x.after h).returned = x.returned from rfl,
        Frame.act_after hr hw (hf x hw' f (by simp [hs]))]
      exact apply_after _ h t rest _
    | nil =>
      have hs' : (x.after h).stack = [] := by simp [Task.after, hs]
      rcases Nat.eq_zero_or_pos t with rfl | h0
      · rw [h.task_zero] at hx ⊢
        simp only [runTask, hw', hx, hs, hs', if_true]
        rfl
      · have h0' : h.task t ≠ 0 := by simpa using h0.ne'
        rw [runTask_nil su h0.ne' hw' hs, runTask_nil su h0' hx hs']
        exact endTask_after { w with running := none } h t _

/-! Turns -/

theorem turn_after (w : World) (h : Prior) (t : Nat) : (w.after h).turn (h.task t) = (w.turn t).after h := by
  unfold turn
  rw [task?_after]
  cases w.task? t with
  | none => rfl
  | some x =>
    simp only [Option.map_some, show (x.after h).ended = x.ended from rfl,
      show (x.after h).cancelled = x.cancelled from rfl, cancelNow_after]
    split_ifs <;> rfl

theorem min?_map_add (xs : List Nat) (n : Nat) : (xs.map (· + n)).min? = xs.min?.map (· + n) := by
  cases hm : xs.min? with
  | none => simp [List.min?_eq_none_iff.1 hm]
  | some m =>
    obtain ⟨hmem, hleast⟩ := List.min?_eq_some_iff.1 hm
    refine List.min?_eq_some_iff.2 ⟨List.mem_map_of_mem hmem, fun y hy => ?_⟩
    obtain ⟨x, hx, rfl⟩ := List.mem_map.1 hy
    exact Nat.add_le_add_right (hleast x hx) n

theorem nextDue_after (w : World) (h : Prior) : (w.after h).nextDue = w.nextDue.map (· + h.time) := by
  rw [nextDue, nextDue, ← min?_map_add, List.map_append, List.map_map]
  congr 1
  simp only [after, List.map_map]
  cases w.alarm <;> rfl

theorem advanceTo_after (w : World) (h : Prior) (due : Nat) :
    (w.after h).advanceTo (due + h.time) = (w.advanceTo due).after h := by
  have hwoken : ((w.after h).timers.filter (·.1 ≤ due + h.time)).map (·.2) =
      ((w.timers.filter (·.1 ≤ due)).map (·.2)).map h.task := by
    simp [after, List.filter_map, Function.comp_def]
  have hrest : { w.after h with
        now := max (w.after h).now (due + h.time)
        timers := (w.after h).timers.filter (due + h.time < ·.1) } =
      World.after { w with now := max w.now due, timers := w.timers.filter (due < ·.1) } h := by
    simp [after, List.filter_map, Function.comp_def, Nat.add_max_add_right]
  simp only [advanceTo, hwoken, hrest, wakeAll_after]
  generalize World.wakeAll { w with now := max w.now due, timers := w.timers.filter (due < ·.1) } _ = v
  rw [show (v.after h).alarm = v.alarm.map (· + h.time) from rfl]
  cases v.alarm with
  | none => rfl
  | some alarm =>
    simp only [Option.map_some, Nat.add_le_add_iff_right]
    split_ifs <;> rfl

theorem wakeYielding_after (w : World) (h : Prior) : (w.after h).wakeYielding = w.wakeYielding.after h :=
  wakeAll_after h w.yielding { w with yielding := [] }

theorem nextRound?_after (w : World) (h : Prior) : (w.after h).nextRound? = w.nextRound?.map (·.after h) := by
  have hy : (w.after h).yielding.isEmpty = w.yielding.isEmpty := by simp [after]
  have hwoken : (if (w.after h).mainReady || !(w.after h).yielding.isEmpty then some (w.after h).wakeYielding
      else (w.after h).nextDue.map (w.after h).advanceTo) =
      (if w.mainReady || !w.yielding.isEmpty then some w.wakeYielding else w.nextDue.map w.advanceTo).map
        (·.after h) := by
    rw [hy, wakeYielding_after, nextDue_after, show (w.after h).mainReady = w.mainReady from rfl]
    split_ifs
    · rfl
    · cases w.nextDue with
      | none => rfl
      | some due => exact congrArg some (advanceTo_after w h due)
  simp only [nextRound?, hwoken]
  generalize (if w.mainReady || !w.yielding.isEmpty then some w.wakeYielding else w.nextDue.map w.advanceTo) = o
  cases o with
  | none => rfl
  | some v =>
    simp only [Option.map_some, show (v.after h).mainReady = v.mainReady from rfl]
    split_ifs <;> rfl

/-- One step of the machine. -/
theorem step?_after (hr : h.Spared own) (hw : 0 < w.tasks.length)
    (hf : ∀ t x, w.task? t = some x → ∀ f ∈ x.stack, f.Keeps own task) :
    (w.after h).step? su = (w.step? su).map (·.after h) := by
  unfold step?
  rw [show (w.after h).running = w.running.map h.task from rfl, show (w.after h).ready = w.ready.map h.task from rfl]
  cases w.running with
  | some t => exact congrArg some (runTask_after hr hw (hf t))
  | none =>
    cases w.ready with
    | nil => exact nextRound?_after w h
    | cons t rest => exact congrArg some (turn_after { w with running := none, ready := rest } h t)

end World

end PageTest
