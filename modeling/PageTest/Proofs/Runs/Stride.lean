import PageTest.Proofs.Runs.Tickets

/-! What one move of any frame does to the registry and to the run passes on its own stack. Nothing is
assumed about what tasks do: they may drive, reset the registry and ask each other to end. -/

namespace PageTest

variable {su : Setup} {w v : World} {f : Frame} {m : Move}

/-- What a move does to the registry, and to the run passes on its own stack. -/
inductive Bearing (w : World) (f : Frame) (v : World) (m : Move) : Prop
  | keep : v.registry.state = w.registry.state → passes m.frames = passes [f] → Bearing w f v m
  | begin : w.registry.state ≠ .running → v.registry.state = .running → m.waits = false →
      passes m.frames = passes [f] + 1 → Bearing w f v m
  | finish : f.isPass = true → v.registry.state ≠ .running → Bearing w f v m
  | reset : v.registry = .empty → Bearing w f v m

/-- A task that was just started: it is not in the middle of a run pass. -/
structure Newborn (a : Activity) : Prop where
  shaped : Shaped a.stack a.returned
  passes : passes a.stack = 0

/-- A move with all that it starts. -/
structure Stride (w : World) (f : Frame) (v : World) (m : Move) : Prop where
  bearing : Bearing w f v m
  seated : m.Seated
  born : ∀ i a, w.core.tasks.length ≤ i → v.core.tasks[i]? = some a → Newborn a

theorem Newborn.of_steps (who : Origin) (body : List Step) :
    Newborn (.fresh [.steps who [] none body]) :=
  ⟨⟨rfl, by simp⟩, rfl⟩

theorem Newborn.of_later (ms : Nat) (who : Origin) (body : List Step) :
    Newborn (.fresh [.sleep ms, .steps who [] none body]) :=
  ⟨⟨rfl, by simp [Frame.Sits]⟩, rfl⟩

theorem Newborn.of_load (path : String) : Newborn (.fresh [.load path .arriving]) :=
  ⟨⟨rfl, by simp⟩, rfl⟩

/-! Steps -/

theorem born_of_length {k k' : Core} (h : k'.tasks.length = k.tasks.length) (i : Nat) (a : Activity)
    (hi : k.tasks.length ≤ i) (ha : k'.tasks[i]? = some a) : Newborn a := by
  rw [List.getElem?_eq_none (by omega)] at ha
  simp at ha

theorem born_of_spawn {k k' : Core} {sts : List (List Frame)} (h : k'.tasks = (k.spawn sts).tasks)
    (hs : ∀ st ∈ sts, Newborn (.fresh st)) (i : Nat) (a : Activity) (hi : k.tasks.length ≤ i)
    (ha : k'.tasks[i]? = some a) : Newborn a := by
  rw [h, Core.spawn, List.getElem?_append_right hi, List.getElem?_map] at ha
  obtain ⟨st, hst, rfl⟩ := Option.map_eq_some_iff.1 ha
  exact hs st (List.mem_of_getElem? hst)

theorem Effect.born {s : Step} {k : Core} {b : Begun} (h : Effect su w s k b) :
    ∀ i a, w.core.tasks.length ≤ i → k.tasks[i]? = some a → Newborn a := by
  cases h with
  | page o _ hst =>
    refine born_of_spawn rfl fun st hm => ?_
    rw [hst st hm]
    exact .of_steps _ _
  | spawn body after hst =>
    refine born_of_spawn rfl fun st hm => ?_
    obtain rfl := List.mem_singleton.1 hm
    rcases hst with rfl | rfl
    · exact .of_steps _ _
    · exact .of_later _ _ _
  | drive hd =>
    refine born_of_spawn (congrArg Core.tasks (World.drive_eq_ok hd).2.1) fun st hm => ?_
    obtain rfl := List.mem_singleton.1 hm
    exact .of_load _
  | abort _ => exact born_of_length (by simp)
  | _ => exact born_of_length rfl

theorem Registry.state_register {g g' : Registry Test} {t : Test} (h : g.register t = .ok g') :
    g'.state = g.state := by
  unfold Registry.register at h
  split_ifs at h
  rw [← Except.ok.inj h]

theorem Registry.state_beginRun {g g' : Registry Test} {tests : List Test}
    (h : g.beginRun = .ok (tests, g')) : g.state ≠ .running ∧ g'.state = .running := by
  unfold Registry.beginRun at h
  split_ifs at h with hs
  rw [← (Prod.mk.inj (Except.ok.inj h)).2]
  exact ⟨hs, rfl⟩

theorem Wait.seated {s : Step} {g : Frame} (h : Wait su s g) : g.inTest = false := by cases h <;> rfl

/-- A step of a body that takes time. -/
theorem Effect.within {s : Step} {k : Core} {g : Frame} (h : Effect su w s k (.within g))
    (hv : v.core = k) (hf : f.isPass = false) :
    Bearing w f v (.call f g) ∧ g.inTest = false := by
  have hreg : v.registry = k.registry := congrArg Core.registry hv
  have kept (hk : k.registry = w.registry) (hg : g.isPass = false) : Bearing w f v (.call f g) :=
    .keep (by rw [hreg, hk]) (by simp [passes, Move.frames, hf, hg])
  cases h with
  | wait _ hw => exact ⟨kept rfl (Frame.pass_of_plain hw.plain), hw.seated⟩
  | run hg =>
    obtain ⟨h0, h1⟩ := Registry.state_beginRun hg
    refine ⟨.begin h0 (hreg ▸ h1) rfl ?_, rfl⟩
    rw [Move.frames, passes_cons]
    exact Nat.add_comm 1 _
  | load => exact ⟨kept rfl rfl, rfl⟩
  | join => exact ⟨kept rfl rfl, rfl⟩
  | abort => exact ⟨kept rfl rfl, rfl⟩
  | drive hd =>
    obtain ⟨-, hcore, rfl⟩ := World.drive_eq_ok hd
    exact ⟨kept (by rw [hcore]; rfl) rfl, rfl⟩
  | driveAll => exact ⟨kept rfl rfl, rfl⟩

/-- A step of a body that is over at once. -/
theorem Effect.immediate {s : Step} {k : Core} {o : Outcome} (h : Effect su w s k (.over o)) :
    k.registry.state = w.registry.state ∨ k.registry = .empty := by
  cases h with
  | register _ hg => exact .inl (Registry.state_register hg)
  | reset => exact .inr rfl
  | _ => exact .inl rfl

namespace Stride

theorem still (hr : v.registry = w.registry) (hl : v.tasks.length = w.tasks.length)
    (hp : passes m.frames = passes [f]) (hm : m.Seated) : Stride w f v m where
  bearing := .keep (by rw [hr]) hp
  seated := hm
  born := born_of_length (by simpa using hl)

theorem of_core (hv : v.core = w.core) (hp : passes m.frames = passes [f]) (hm : m.Seated) :
    Stride w f v m :=
  .still (congrArg Core.registry hv) (by simpa using congrArg (·.tasks.length) hv) hp hm

theorem of_length (hl : v.tasks.length = w.tasks.length) (hb : Bearing w f v m) (hm : m.Seated) :
    Stride w f v m :=
  ⟨hb, hm, born_of_length (by simpa using hl)⟩

end Stride

namespace Frame

theorem stride_stepOver {who : Origin} {found : List Nat} {s : Step} {rest : List Step} (o : Outcome)
    (hf : f.isPass = false) : Stride w f (stepOver w who found s rest o).1 (stepOver w who found s rest o).2 := by
  have hplain := plain_stepOver w who found s rest o
  refine .of_core (world_stepOver w who found s rest o).1 ?_ (.of_plain hplain)
  rw [passes_of_plain hplain]
  simp [passes, hf]

theorem stride_runSteps (who : Origin) (found : List Nat) (cur : Option Step) (steps : List Step) :
    Stride w (.steps who found cur steps) (runSteps su w who found steps).1
      (runSteps su w who found steps).2 := by
  cases steps with
  | nil => exact .still rfl rfl rfl trivial
  | cons s rest =>
    have he := World.begin_effect su found w s
    rcases hb : w.begin su found s with ⟨v, b⟩
    rw [hb] at he
    simp only [runSteps, hb]
    rcases b with o | g
    · have hplain := plain_stepOver v who found s rest o
      have hcore := (world_stepOver v who found s rest o).1
      have hreg : (stepOver v who found s rest o).1.registry = v.registry := congrArg Core.registry hcore
      refine ⟨?_, .of_plain hplain, fun i a hi ha => he.born i a hi (hcore ▸ ha)⟩
      rcases he.immediate with h | h
      · exact .keep (hreg ▸ h) (passes_of_plain hplain)
      · exact .reset (hreg ▸ h)
    · obtain ⟨hbear, hg⟩ := he.within (f := .steps who found (some s) rest) rfl rfl
      refine ⟨?_, ⟨trivial, hg⟩, he.born⟩
      cases hbear with
      | keep h hp => exact .keep h hp
      | begin h h' hw hp => exact .begin h h' hw hp
      | finish h => simp [isPass] at h
      | reset h => exact .reset h

theorem stride_runPoll (c : Condition) (msg : String) (wait : WaitOptions) (polls : Nat) :
    Stride w (.poll c msg wait polls) (runPoll w c msg wait polls).1 (runPoll w c msg wait polls).2 := by
  unfold runPoll
  split
  · exact .still rfl rfl rfl trivial
  · split
    · exact .still rfl rfl rfl trivial
    · exact .still rfl rfl rfl trivial
    · exact .still rfl rfl rfl trivial
    · split
      · exact .still rfl rfl rfl ⟨trivial, rfl⟩
      · exact .still rfl rfl rfl rfl

theorem stride_runWaitLoad (loaded : Bool) (l : Option Nat) :
    Stride w (.waitLoad loaded l) (runWaitLoad su w loaded l).1 (runWaitLoad su w loaded l).2 := by
  cases l with
  | none =>
    simp only [runWaitLoad]
    split_ifs
    · exact .still rfl rfl rfl rfl
    · exact .still rfl rfl rfl rfl
    · exact .still rfl rfl rfl rfl
  | some l =>
    simp only [runWaitLoad]
    split_ifs
    · exact .still rfl rfl rfl trivial
    · exact .still rfl rfl rfl rfl
    · exact .still rfl rfl rfl rfl

theorem stride_runPass (cur : Option Test) (queue : List Test) :
    Stride w (.pass cur queue) (runPass w queue).1 (runPass w queue).2 := by
  cases queue with
  | nil => exact .of_length rfl (.finish rfl (by simp [runPass, finish, Registry.finish])) trivial
  | cons t queue =>
    simp only [runPass]
    split
    · exact .of_length rfl (.finish rfl (by simp [abortPass, finish, Registry.finish])) trivial
    · exact .still rfl rfl rfl ⟨trivial, rfl⟩

theorem stride_resumePass (t : Test) (queue : List Test) (o : Outcome) :
    Stride w (.pass (some t) queue) (resumePass w t queue o).1 (resumePass w t queue o).2 := by
  have aborted (f : Failure) : Stride w (.pass (some t) queue) (abortPass w f).1 (abortPass w f).2 :=
    .of_length rfl (.finish rfl (by simp [abortPass, finish, Registry.finish])) trivial
  cases o with
  | value r => exact .still rfl rfl rfl rfl
  | fault f => exact aborted _
  | panic p => exact aborted _

theorem stride_leaveLoad {u : World} {k : Nat} (o : Outcome) (hf : f.isPass = false)
    (hr : u.registry = w.registry) (hl : u.tasks.length = w.tasks.length) :
    Stride w f (leaveLoad u k o).1 (leaveLoad u k o).2 := by
  have hcore := World.core_leaveLock u k
  refine .still ?_ ?_ (by simp [leaveLoad, Move.frames, passes, hf]) trivial
  · exact (congrArg Core.registry hcore).trans hr
  · have hlen : (u.leaveLock k).tasks.length = u.tasks.length := by
      simpa using congrArg (·.tasks.length) hcore
    exact hlen.trans hl

theorem stride_runLoad (self : Nat) (path : String) (phase : LoadPhase) :
    Stride w (.load path phase) (runLoad su w self path phase).1 (runLoad su w self path phase).2 := by
  cases phase with
  | arriving =>
    simp only [runLoad]
    split_ifs
    · exact .still rfl rfl rfl rfl
    · exact .still rfl rfl rfl rfl
  | queueing k =>
    simp only [runLoad]
    split_ifs
    · exact .still rfl rfl rfl rfl
    · exact .still rfl rfl rfl rfl
  | entered k =>
    simp only [runLoad]
    split_ifs
    · exact .of_length rfl (.reset rfl) rfl
    · exact .of_length rfl (.reset rfl) ⟨trivial, rfl⟩
    · exact stride_leaveLoad _ rfl rfl rfl
  | loading k =>
    simp only [runLoad]
    split_ifs
    · exact stride_leaveLoad _ rfl rfl rfl
    · split
      · exact stride_leaveLoad _ rfl rfl rfl
      · exact .still rfl rfl rfl ⟨trivial, rfl⟩
  | registering k =>
    simp only [runLoad]
    split
    next tests g hg =>
      obtain ⟨h0, h1⟩ := Registry.state_beginRun hg
      exact .of_length rfl (.begin h0 h1 rfl rfl) ⟨trivial, rfl⟩
    next => exact .still rfl rfl rfl rfl
  | running k => exact stride_leaveLoad _ rfl rfl rfl

theorem stride_resumeLoad {path : String} {phase : LoadPhase} (o : Outcome)
    (hf : (Frame.load path phase).Sits) :
    Stride w (.load path phase) (resumeLoad w path phase o).1 (resumeLoad w path phase o).2 := by
  unfold resumeLoad
  split
  · exact stride_leaveLoad _ rfl rfl rfl
  · exact stride_leaveLoad _ rfl rfl rfl
  · exact .still rfl rfl rfl rfl
  · cases phase with
    | loading k | registering k | running k => exact stride_leaveLoad _ rfl rfl rfl
    | _ => exact hf.elim

theorem stride_joined (d : Drive) (phase : DrivePhase) (how : TaskReport) {u : World}
    (hr : u.registry = w.registry) (hl : u.tasks.length = w.tasks.length) :
    Stride w (.drive d phase) (joined u d how).1 (joined u d how).2 := by
  unfold joined
  split_ifs
  · exact .still hr hl rfl rfl
  · exact .still hr hl rfl trivial

theorem stride_runDrive (self : Nat) (d : Drive) (phase : DrivePhase) :
    Stride w (.drive d phase) (runDrive su w self d phase).1 (runDrive su w self d phase).2 := by
  have waits (u : World) (t : Nat) : (u.waitFor self t).tasks.length = u.tasks.length := by
    simp [World.waitFor, World.modifyTask]
  cases phase with
  | look fin =>
    simp only [runDrive]
    have hr : (drainInto w d).1.registry = w.registry := rfl
    have hl : (drainInto w d).1.tasks.length = w.tasks.length := rfl
    generalize (drainInto w d).1 = u, (drainInto w d).2 = e at hr hl
    split
    · exact .still hr hl rfl trivial
    · split
      · exact .still hr ((waits _ _).trans hl) rfl rfl
      · split
        · have hc := World.core_cancel u e.load
          have hlen : (u.cancel e.load).tasks.length = u.tasks.length := by
            simpa using congrArg (·.tasks.length) hc
          refine .still ?_ ((waits _ _).trans (hlen.trans hl)) rfl rfl
          exact (congrArg Core.registry hc).trans hr
        · split
          · unfold joined
            split_ifs
            · exact .still hr hl rfl rfl
            · exact .still hr hl rfl trivial
          · split
            · exact .still hr ((waits _ _).trans hl) rfl rfl
            · exact .still hr ((waits _ _).trans hl) rfl rfl
  | watch due =>
    simp only [runDrive]
    split
    · split_ifs
      · exact .still rfl rfl rfl rfl
      · exact stride_joined _ _ _ rfl rfl
    · split_ifs
      · exact .still rfl rfl rfl rfl
      · exact .still rfl rfl rfl rfl
  | settling =>
    simp only [runDrive]
    split
    · exact .still rfl rfl rfl trivial
    · exact .still rfl rfl rfl trivial
    · exact .still rfl rfl rfl rfl
  | stopping =>
    simp only [runDrive]
    split
    · exact .still rfl rfl rfl trivial
    · exact .still rfl rfl rfl trivial
    · exact .still rfl rfl rfl rfl

theorem stride_runDriveAll (start : Nat) (results : List RunReport) (paths : List String) :
    Stride w (.driveAll start paths results) (runDriveAll su w start results paths).1
      (runDriveAll su w start results paths).2 := by
  cases paths with
  | nil => exact .still rfl rfl rfl trivial
  | cons path rest =>
    simp only [runDriveAll]
    split
    next => exact .still rfl rfl rfl trivial
    next v f hd =>
      obtain ⟨-, hcore, rfl⟩ := World.drive_eq_ok hd
      refine ⟨.keep ?_ rfl, ⟨trivial, rfl⟩, born_of_spawn (congrArg Core.tasks hcore) fun st hm => ?_⟩
      · exact congrArg (·.registry.state) hcore
      · obtain rfl := List.mem_singleton.1 hm
        exact .of_load _

theorem stride_run (self : Nat) (f : Frame) : Stride w f (f.run su w self).1 (f.run su w self).2 := by
  cases f with
  | steps who found cur rest => exact stride_runSteps who found cur rest
  | sleep ms =>
    simp only [run, runSleep]
    split_ifs
    · exact .still rfl rfl rfl rfl
    · exact .still rfl rfl rfl trivial
    · exact .still rfl rfl rfl rfl
  | pause due =>
    simp only [run, runPause]
    split_ifs
    · exact .still rfl rfl rfl trivial
    · exact .still rfl rfl rfl rfl
  | yield yielded =>
    simp only [run, runYield]
    split_ifs
    · exact .still rfl rfl rfl trivial
    · exact .still rfl rfl rfl rfl
  | poll c msg wait polls => exact stride_runPoll c msg wait polls
  | waitLoad loaded l => exact stride_runWaitLoad loaded l
  | load path phase => exact stride_runLoad self path phase
  | pass cur queue => exact stride_runPass cur queue
  | join task =>
    simp only [run, runJoin]
    split
    · split_ifs
      · exact .still rfl rfl rfl rfl
      · exact .still rfl rfl rfl trivial
    · exact .of_core (World.core_waitFor w self task) rfl rfl
  | drive d phase => exact stride_runDrive self d phase
  | driveAll start rest results => exact stride_runDriveAll start results rest

theorem stride_resume (f : Frame) (o : Outcome) (hf : f.Sits) :
    Stride w f (f.resume w o).1 (f.resume w o).2 := by
  unfold resume
  split
  · exact stride_stepOver _ rfl
  · exact stride_resumePass _ _ _
  · exact stride_resumeLoad _ hf
  · exact .still rfl rfl rfl rfl
  · exact .still rfl rfl rfl rfl
  · exact .still rfl rfl rfl rfl
  · refine .still rfl rfl ?_ trivial
    cases f with
    | pass cur queue =>
      cases cur with
      | none => exact hf.elim
      | some t => simp_all
    | _ => rfl

/-- What any frame does with its turn. -/
theorem stride_act (su : Setup) (w : World) (self : Nat) (f : Frame) (ret : Option Outcome)
    (hs : ret.isSome → f.Sits) : Stride w f (f.act su w self ret).1 (f.act su w self ret).2 := by
  cases ret with
  | none => exact stride_run self f
  | some o => exact stride_resume f o (hs rfl)

end Frame

end PageTest
