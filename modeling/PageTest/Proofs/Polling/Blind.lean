import PageTest.Proofs.Polling.Veil
import PageTest.Proofs.Runs.Observed

/-! Those who do not look into the log do the same whether a driver is at its rounds or not, however
often it looks and however long it waits. -/

namespace PageTest

/-- The same with another driver: one that looks more or less often, and waits for longer or not. -/
def Setup.polling (su : Setup) (pollIntervalMs timeoutSecs : Nat) : Setup :=
  { su with driver := { su.driver with pollIntervalMs, timeoutSecs } }

/-- The step does not look into the log. -/
def Step.unread : Step → Bool
  | .logs | .logLen | .runPath _ | .runPaths _ => false
  | _ => true

/-- All that is still to come of the frame does without a look into the log. -/
abbrev Frame.Unread (f : Frame) : Prop := f.Keeps Step.unread Step.unread

/-- No registered test looks into the log. -/
abbrev Registry.Unread (g : Registry Test) : Prop := g.Keeps Step.unread Step.unread

/-- What comes of a move in the world of the driver, and in the world without it. -/
structure World.Blind {α : Type} (p q : World × α) : Prop where
  hood : q.1 = p.1.hood
  same : q.2 = p.2
  hidden : p.1.Hidden

variable {su : Setup} {ms secs : Nat}

namespace World

variable {w : World} {t : Nat}

theorem Unseen.blind {α : Type} {f : World → World} (h : Unseen w f) (x : α) :
    Blind (f w, x) (f w.hood, x) := ⟨h.hood, rfl, h.hidden⟩

theorem Hidden.blind {α : Type} (h : w.Hidden) (x : α) : Blind (w, x) (w.hood, x) := ⟨rfl, rfl, h⟩

/-! Steps -/

theorem place_hood (w : World) (found : List Nat) (e : Place) : w.hood.place found e = w.place found e := by
  cases e <;> rfl

theorem blind_input (h : w.Hidden) (found : List Nat) (e : Place) (act : Scene → Nat → Scene × Outcome) :
    Blind (w.input found e act) (w.hood.input found e act) := by
  unfold input
  rw [place_hood]
  split
  · exact h.blind _
  · exact (unseen_withScene h _).blind _

theorem blind_inspect {β : Type} (h : w.Hidden) (found : List Nat) (e : Place)
    (look : Page Action → Nat → Except PageError β) (entry : β → LogEntry) :
    Blind (w.inspect found e look entry) (w.hood.inspect found e look entry) := by
  unfold inspect
  rw [place_hood, show w.hood.scene = w.scene from rfl]
  split
  · exact h.blind _
  · exact (unseen_enter h _).blind _

theorem blind_register (h : w.Hidden) (t : Test) : Blind (w.register t) (w.hood.register t) := by
  unfold register
  rw [show w.hood.registry = w.registry from rfl]
  split
  · exact h.blind _
  · exact ⟨rfl, rfl, h.main, h.queue, h.handles⟩

theorem blind_spawn (h : w.Hidden) (body : List Step) (after : Nat) :
    Blind (w.spawn body after) (w.hood.spawn body after) := by
  have hs := unseen_start h (if after = 0 then [.steps (.task w.handles.length) [] none body]
    else [.sleep after, .steps (.task w.handles.length) [] none body])
  have hlen : w.hood.tasks.length = w.tasks.length := length_veil w
  refine ⟨?_, rfl, hs.hidden.main, hs.hidden.queue, ?_⟩
  · have := hs.hood
    simp only [spawn, start, hood, veil] at this hlen ⊢
    simp only [World.mk.injEq] at this ⊢
    simpa [hlen] using this
  · have hpos := h.pos
    simpa [spawn, start] using ⟨h.handles, by omega⟩

theorem blind_takeHandle (h : w.Hidden) (i : Nat) :
    Blind ((w.takeHandle i).2, (w.takeHandle i).1) ((w.hood.takeHandle i).2, (w.hood.takeHandle i).1) ∧
      (w.takeHandle i).1 ≠ some 0 := by
  have hv := takeHandle_veil (n := w.now) (a := w.allowance) w i
  refine ⟨⟨?_, by rw [hood, hv], ?_⟩, ?_⟩
  · rw [hood, hv]
    unfold takeHandle
    split <;> rfl
  · unfold takeHandle
    split
    · exact ⟨h.main, h.queue, fun hm => (List.mem_or_eq_of_mem_set hm).elim h.handles (by simp)⟩
    · exact h
  · unfold takeHandle
    split
    next t ht => exact fun he => h.handles (Option.some.inj he ▸ List.mem_of_getElem? ht)
    next => simp

theorem blind_begin (su : Setup) (ms secs : Nat) (h : w.Hidden) (found : List Nat) {s : Step}
    (hs : s.bare.unread = true) : Blind (w.begin (su.polling ms secs) found s) (w.hood.begin su found s) := by
  have hbare := s.bare_attempt
  rw [begin_bare, begin_bare su]
  generalize s.bare = b at hs hbare
  cases b with
  | attempt s => exact absurd rfl (hbare s)
  | logs | logLen | runPath | runPaths => simp [Step.unread] at hs
  | page s =>
    simp only [World.begin]
    exact (unseen_withScene h _).blind _
  | ok | is | isnot | info => exact (unseen_enter h _).blind _
  | isDisplay | isValue | okChecked => exact blind_inspect h _ _ _ _
  | setText | clickCheckbox | click => exact blind_input h _ _ _
  | addTest | addFunction => exact blind_register h _
  | spawn body after => exact blind_spawn h body after
  | append kind msg =>
    simp only [World.begin]
    split
    · exact (unseen_append h _ _).blind _
    · exact h.blind _
  | reset => exact ⟨rfl, rfl, h.main, h.queue, h.handles⟩
  | waitShown e msg wait =>
    simp only [World.begin, place_hood]
    split
    · exact h.blind _
    · exact h.blind _
  | run =>
    simp only [World.begin, show w.hood.registry = w.registry from rfl]
    split
    · exact h.blind _
    · exact ⟨rfl, rfl, h.main, h.queue, h.handles⟩
  | writeResults =>
    simp only [World.begin, show (su.polling ms secs).outputBlocked = su.outputBlocked from rfl]
    split_ifs
    · exact h.blind _
    · exact h.blind _
  | join i =>
    have hb := (blind_takeHandle h i).1
    rcases hw : w.takeHandle i with ⟨_ | t, v⟩
    all_goals
      rcases hq : w.hood.takeHandle i with ⟨o, u⟩
      rw [hw, hq] at hb
      obtain rfl : o = _ := hb.same
      obtain rfl : u = v.hood := hb.hood
      simp only [World.begin, hw, hq]
      exact hb.hidden.blind _
  | abort i =>
    obtain ⟨hb, hne⟩ := blind_takeHandle h i
    rcases hw : w.takeHandle i with ⟨_ | t, v⟩
    all_goals
      rcases hq : w.hood.takeHandle i with ⟨o, u⟩
      rw [hw, hq] at hb
      obtain rfl : o = _ := hb.same
      obtain rfl : u = v.hood := hb.hood
      simp only [World.begin, hw, hq]
    · exact hb.hidden.blind _
    · exact (unseen_cancel hb.hidden (by simpa [hw] using hne)).blind _
  | _ => exact h.blind _

end World

/-! Frames -/

namespace Frame

variable {w : World} {self : Nat}

theorem blind_stepOver (h : w.Hidden) (who : Origin) (found : List Nat) (s : Step) (rest : List Step)
    (o : Outcome) : World.Blind (stepOver w who found s rest o) (stepOver w.hood who found s rest o) := by
  cases o with
  | fault f =>
    simp only [stepOver, noteFault]
    split <;> exact ⟨rfl, rfl, h.main, h.queue, h.handles⟩
  | _ => exact ⟨rfl, rfl, h.main, h.queue, h.handles⟩

theorem blind_runSteps (h : w.Hidden) (who : Origin) (found : List Nat) {steps : List Step}
    (hs : Step.allEvery Step.unread Step.unread steps = true) :
    World.Blind (runSteps (su.polling ms secs) w who found steps) (runSteps su w.hood who found steps) := by
  cases steps with
  | nil => exact h.blind _
  | cons s rest =>
    obtain ⟨hs, -⟩ := Bool.and_eq_true_iff.1 hs
    have hb := World.blind_begin su ms secs h found (Step.own_of_every hs)
    rcases hw : w.begin (su.polling ms secs) found s with ⟨v, b⟩
    rcases hq : w.hood.begin su found s with ⟨u, c⟩
    rw [hw, hq] at hb
    obtain rfl : c = b := hb.same
    obtain rfl : u = v.hood := hb.hood
    simp only [runSteps, hw, hq]
    rcases c with o | f
    · exact blind_stepOver hb.hidden who found s rest o
    · exact hb.hidden.blind _

theorem blind_runPoll (h : w.Hidden) (c : Condition) (msg : String) (wait : WaitOptions) (polls : Nat) :
    World.Blind (runPoll w c msg wait polls) (runPoll w.hood c msg wait polls) := by
  simp only [runPoll, show w.hood.scene = w.scene from rfl]
  split
  · exact (World.unseen_append h _ _).blind _
  · split
    · exact h.blind _
    · exact h.blind _
    · exact (World.unseen_append h _ _).blind _
    · split <;> exact h.blind _

theorem blind_runWaitLoad (h : w.Hidden) (loaded : Bool) (l : Option Nat) :
    World.Blind (runWaitLoad (su.polling ms secs) w loaded l) (runWaitLoad su w.hood loaded l) := by
  have spent : w.spend.Hidden := ⟨h.main, h.queue, h.handles⟩
  cases l with
  | none =>
    simp only [runWaitLoad, show (su.polling ms secs).deaf = su.deaf from rfl, show w.hood.scene = w.scene from rfl]
    split
    · exact h.blind _
    · exact ⟨rfl, rfl, h.main, h.queue, h.handles⟩
  | some l =>
    simp only [runWaitLoad, show w.hood.scene = w.scene from rfl]
    split
    · split <;> exact (World.unseen_append spent _ _).blind _
    · exact h.blind _

theorem blind_runJoin (h : w.Hidden) (h0 : self ≠ 0) {task : Nat} (ht : task ≠ 0) :
    World.Blind (runJoin w self task) (runJoin w.hood self task) := by
  simp only [runJoin, show w.hood.ended? task = w.ended? task from World.ended?_veil w ht,
    show w.hood.allowance = w.allowance from rfl]
  split
  · split
    · exact (World.unseen_standBack h).blind _
    · exact ⟨rfl, rfl, h.main, h.queue, h.handles⟩
  · exact (World.unseen_waitFor h h0 ht).blind _

theorem blind_abortPass (h : w.Hidden) (f : Failure) :
    World.Blind (abortPass w f) (abortPass w.hood f) := by
  have hs := (World.unseen_append h .fail f.message).comp
    (World.unseen_append (World.unseen_append h .fail f.message).hidden .stack f.stack)
  have hh := hs.hidden
  refine ⟨?_, rfl, hh.main, hh.queue, hh.handles⟩
  simp only [abortPass, finish, hs.hood]
  rfl

theorem blind_runPass (h : w.Hidden) (queue : List Test) :
    World.Blind (runPass w queue) (runPass w.hood queue) := by
  cases queue with
  | nil => exact ⟨rfl, rfl, h.main, h.queue, h.handles⟩
  | cons t queue =>
    have hs := (World.unseen_append h .subtest t.name).comp
      (World.unseen_append (World.unseen_append h .subtest t.name).hidden .info (Subtest.entering t.name))
    simp only [runPass, hs.hood]
    split
    · exact blind_abortPass hs.hidden _
    · exact hs.hidden.blind _

theorem blind_resumePass (h : w.Hidden) (t : Test) (queue : List Test) (o : Outcome) :
    World.Blind (resumePass w t queue o) (resumePass w.hood t queue o) := by
  cases o with
  | value r => exact (World.unseen_append h _ _).blind _
  | fault f => exact blind_abortPass h _
  | panic p => exact blind_abortPass h _

theorem blind_leaveLoad (h : w.Hidden) (ticket : Nat) (o : Outcome) :
    World.Blind (leaveLoad w ticket o) (leaveLoad w.hood ticket o) := (World.unseen_leaveLock h ticket).blind _

theorem blind_failLoad (h : w.Hidden) (ticket : Nat) (reason : String) :
    World.Blind (failLoad w ticket reason) (failLoad w.hood ticket reason) := by
  have hs := World.unseen_append h .fail reason
  simp only [failLoad, hs.hood]
  exact blind_leaveLoad hs.hidden ticket _

theorem blind_runLoad (h : w.Hidden) (h0 : self ≠ 0) (path : String) (phase : LoadPhase) :
    World.Blind (runLoad (su.polling ms secs) w self path phase) (runLoad su w.hood self path phase) := by
  cases phase with
  | arriving =>
    simp only [runLoad, show w.hood.lock = w.lock from rfl, show w.hood.allowance = w.allowance from rfl]
    split
    · exact (World.unseen_standBack h).blind _
    · refine ⟨rfl, rfl, h.main, fun q hq => ?_, h.handles⟩
      unfold Lock.arrive at hq
      split at hq
      · exact h.queue q hq
      · rcases List.mem_append.1 hq with hq | hq
        · exact h.queue q hq
        · obtain rfl := List.mem_singleton.1 hq
          exact h0
  | queueing k =>
    simp only [runLoad, show w.hood.lock = w.lock from rfl]
    split
    · exact ⟨rfl, rfl, h.main, h.queue, h.handles⟩
    · exact h.blind _
  | entered k =>
    have hr : World.Hidden { w with registry := w.registry.reset } := ⟨h.main, h.queue, h.handles⟩
    have hs := World.unseen_append hr .testStart path
    simp only [runLoad, show (su.polling ms secs).loader = su.loader from rfl,
      show (su.polling ms secs).driver.harness = su.driver.harness from rfl]
    split
    · split <;> exact ⟨hs.hood, rfl, hs.hidden⟩
    · exact blind_failLoad h k _
  | loading k =>
    simp only [runLoad, show (su.polling ms secs).loader = su.loader from rfl,
      show (su.polling ms secs).catalog = su.catalog from rfl]
    split
    · exact blind_leaveLoad h k _
    · split
      · exact blind_failLoad h k _
      · exact h.blind _
  | registering k =>
    simp only [runLoad, show w.hood.registry = w.registry from rfl]
    split
    · exact ⟨rfl, rfl, h.main, h.queue, h.handles⟩
    · exact (World.unseen_append h _ _).blind _
  | running k =>
    have hs := World.unseen_append h .testEnd path
    simp only [runLoad, hs.hood]
    exact blind_leaveLoad hs.hidden k _

theorem blind_resumeLoad (h : w.Hidden) (path : String) (phase : LoadPhase) (o : Outcome) :
    World.Blind (resumeLoad w path phase o) (resumeLoad w.hood path phase o) := by
  unfold resumeLoad
  split
  · exact blind_failLoad h _ _
  · exact blind_failLoad h _ _
  · exact h.blind _
  · split
    · exact blind_leaveLoad h _ _
    · exact h.blind _

theorem blind_run {L : Nat} (h : w.Hidden) (h0 : self ≠ 0) {f : Frame} (hf : f.Unread) (hj : f.Spares L) :
    World.Blind (f.run (su.polling ms secs) w self) (f.run su w.hood self) := by
  cases f with
  | steps who found cur rest => exact blind_runSteps h who found hf
  | sleep n =>
    simp only [run, runSleep, show w.hood.allowance = w.allowance from rfl]
    split
    · split
      · exact (World.unseen_standBack h).blind _
      · exact ⟨rfl, rfl, h.main, h.queue, h.handles⟩
    · exact (World.unseen_setTimer h h0).blind _
  | pause due =>
    simp only [run, runPause, show w.hood.now = w.now from rfl]
    split
    · exact ⟨rfl, rfl, h.main, h.queue, h.handles⟩
    · exact h.blind _
  | yield yielded =>
    simp only [run, runYield]
    split
    · exact h.blind _
    · exact (World.unseen_standBack h).blind _
  | poll c msg wait polls => exact blind_runPoll h c msg wait polls
  | waitLoad loaded l => exact blind_runWaitLoad h loaded l
  | load path phase => exact blind_runLoad h h0 path phase
  | pass cur queue => exact blind_runPass h queue
  | join task => exact blind_runJoin h h0 hj.1
  | drive d phase => exact hf.elim
  | driveAll start rest results => exact hf.elim

theorem blind_resume (h : w.Hidden) (f : Frame) (o : Outcome) :
    World.Blind (f.resume w o) (f.resume w.hood o) := by
  unfold resume
  split
  · exact blind_stepOver h _ _ _ _ o
  · exact blind_resumePass h _ _ o
  · exact blind_resumeLoad h _ _ o
  · exact h.blind _
  · exact h.blind _
  · exact h.blind _
  · exact h.blind _

/-- A move does the same in both worlds. -/
theorem blind_act {L : Nat} (su : Setup) (ms secs : Nat) (h : w.Hidden) (h0 : self ≠ 0) {f : Frame}
    (ret : Option Outcome) (hf : f.Unread) (hj : f.Spares L) :
    World.Blind (f.act (su.polling ms secs) w self ret) (f.act su w.hood self ret) := by
  cases ret with
  | none => exact blind_run h h0 hf hj
  | some o => exact blind_resume h f o

end Frame

/-! Tasks -/

namespace World

variable {w : World} {t : Nat}

theorem blind_apply (h : w.Hidden) (h0 : t ≠ 0) (rest : List Frame) (m : Move) :
    w.hood.apply t rest m = (w.apply t rest m).hood ∧ (w.apply t rest m).Hidden := by
  have put (st : List Frame) (ret : Option Outcome) : Unseen w (·.modifyTask t fun task =>
      { task with stack := st, returned := ret }) := unseen_modifyTask h h0 fun _ => rfl
  cases m with
  | goOn f => exact ⟨(put (f :: rest) none).hood, (put (f :: rest) none).hidden⟩
  | call f callee => exact ⟨(put (callee :: f :: rest) none).hood, (put (callee :: f :: rest) none).hidden⟩
  | leave o => exact ⟨(put rest (some o)).hood, (put rest (some o)).hidden⟩
  | halt f =>
    have hp := put (f :: rest) none
    have hh := hp.hidden
    simp only [apply, hp.hood]
    generalize w.modifyTask t (fun task => { task with stack := f :: rest, returned := none }) = v at hh ⊢
    have hv : Hidden { v with running := none } := ⟨hh.main, hh.queue, hh.handles⟩
    have hc := unseen_cancelNow hv h0
    have ht : ((World.task? { v.hood with running := none } t).map (·.cancelled)) =
        (World.task? { v with running := none } t).map (·.cancelled) := by
      have := task?_veil (n := v.now) (a := v.allowance) v h0
      rw [show World.task? { v.hood with running := none } t = v.hood.task? t from rfl, hood, this, Option.map_map]
      rfl
    rw [ht]
    split
    · exact ⟨hc.hood, hc.hidden⟩
    · exact ⟨rfl, hv⟩

/-- Another task does the same in both worlds. -/
theorem blind_runTask {L : Nat} (su : Setup) (ms secs : Nat) (h : w.Hidden) (h0 : t ≠ 0)
    (hx : ∀ x, w.task? t = some x → ∀ f ∈ x.stack, f.Unread ∧ f.Spares L) :
    w.hood.runTask su t = (w.runTask (su.polling ms secs) t).hood ∧
      (w.runTask (su.polling ms secs) t).Hidden := by
  have stop : World.Hidden { w with running := none } := ⟨h.main, h.queue, h.handles⟩
  have ht : w.hood.task? t = (w.task? t).map Task.veil := task?_veil w h0
  cases hw : w.task? t with
  | none =>
    rw [hw] at ht
    simp only [runTask, hw, ht, Option.map_none]
    exact ⟨rfl, stop⟩
  | some x =>
    rw [hw] at ht
    cases hs : x.stack with
    | nil =>
      rw [runTask_nil _ h0 hw hs, runTask_nil su h0 ht hs]
      have he := unseen_endTask stop h0 (reportOf (x.returned.getD (.value .done)))
      exact ⟨he.hood, he.hidden⟩
    | cons f rest =>
      obtain ⟨hf, hj⟩ := hx x hw f (by simp [hs])
      have hb := Frame.blind_act su ms secs h h0 x.returned hf hj
      rw [runTask_frame _ hw hs, runTask_frame su ht hs]
      rcases hp : f.act (su.polling ms secs) w t x.returned with ⟨v, m⟩
      rcases hq : f.act su w.hood t x.veil.returned with ⟨u, c⟩
      rw [hp, show f.act su w.hood t x.returned = (u, c) from hq] at hb
      obtain rfl : c = m := hb.same
      obtain rfl : u = v.hood := hb.hood
      exact blind_apply hb.hidden h0 rest c

end World

/-! Nobody ever comes to look into the log if no script says so. -/

/-- No script looks into the log. -/
abbrev Setup.Unread (su : Setup) : Prop := ∀ sc ∈ su.catalog, Step.allEvery Step.unread Step.unread sc.body = true

theorem Setup.Unread.rules (h : su.Unread) : Rules su Step.unread Step.unread where
  path _ := rfl
  paths _ := rfl
  navigates := ⟨fun _ => rfl, fun _ => rfl⟩
  scripts _ sc _ hsc := h sc (List.mem_of_find?_eq_some hsc)

/-- Nobody will look into the log. -/
abbrev Heedless (w : World) : Prop := w.Observes Step.unread

theorem Heedless.step {w w' : World} (h : Heedless w) (hu : su.Unread) (hs : w.step? su = some w') : Heedless w' :=
  World.Observes.step h hu.rules (fun _ => rfl) hs

end PageTest
