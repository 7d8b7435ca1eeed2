import PageTest.Proofs.Runs.Errand

/-! Whatever a frame that keeps to a rule leaves in its place keeps to the rule as well, and so do
the tasks that it starts. -/

namespace PageTest

/-- All that is still to come of the frame keeps to a rule. No rule lets anybody drive. -/
def Frame.Keeps (own task : Step → Bool) : Frame → Prop
  | .steps _ _ _ rest => Step.allEvery own task rest = true
  | .pass _ queue => ∀ t ∈ queue, Step.allEvery own task t.body = true
  | .poll .. | .waitLoad .. => ∃ s : Step, s.speaks = true ∧ own s = true
  | .load path _ => own (.load path) = true
  | .drive .. | .driveAll .. => False
  | .sleep _ | .pause _ | .yield _ | .join _ => True

/-- A task that a body has just started. -/
structure Newcomer (rule : Step → Bool) (a : Activity) : Prop where
  returned : a.returned = none
  ended : a.ended = none
  cancelled : a.cancelled = false
  plain : ∀ g ∈ a.stack, g.isPlain = true
  keeps : ∀ g ∈ a.stack, g.Keeps rule rule

/-- All tasks that were not there before have just been started. -/
def Newcomers (rule : Step → Bool) (k k' : Core) : Prop :=
  ∀ i a, k.tasks.length ≤ i → k'.tasks[i]? = some a → Newcomer rule a

variable {su : Setup} {own task : Step → Bool} {w v : World}

namespace Newcomers

variable {rule : Step → Bool} {k k' : Core}

theorem of_length (h : k'.tasks.length = k.tasks.length) : Newcomers rule k k' := fun i a hi ha => by
  rw [List.getElem?_eq_none (by omega)] at ha
  simp at ha

theorem of_spawn {sts : List (List Frame)} (ht : k'.tasks = (k.spawn sts).tasks)
    (h : ∀ st ∈ sts, Newcomer rule (.fresh st)) : Newcomers rule k k' := fun i a hi ha => by
  rw [ht, Core.spawn, List.getElem?_append_right hi, List.getElem?_map] at ha
  obtain ⟨st, hst, rfl⟩ := Option.map_eq_some_iff.1 ha
  exact h st (List.mem_of_getElem? hst)

end Newcomers

theorem Newcomer.of_steps {rule : Step → Bool} {who : Origin} {body : List Step}
    (h : Step.allEvery rule rule body = true) : Newcomer rule (.fresh [.steps who [] none body]) :=
  ⟨rfl, rfl, rfl, by simp [Activity.fresh, Frame.isPlain],
    by simpa [Activity.fresh, Frame.Keeps] using h⟩

theorem Newcomer.of_later {rule : Step → Bool} {who : Origin} {body : List Step} {after : Nat}
    (h : Step.allEvery rule rule body = true) :
    Newcomer rule (.fresh [.sleep after, .steps who [] none body]) :=
  ⟨rfl, rfl, rfl, by simp [Activity.fresh, Frame.isPlain],
    by simpa [Activity.fresh, Frame.Keeps] using h⟩

/-- The steps that a frame takes when it navigates are allowed. -/
def Navigates (rule : Step → Bool) : Prop :=
  (∀ ms, rule (.sleep ms) = true) ∧ ∀ p, rule (.page p) = true

theorem Navigates.newcomer {rule : Step → Bool} (h : Navigates rule) :
    Newcomer rule (.fresh World.navigation) :=
  .of_steps (by simp [Step.allEvery, Step.every, h.1, h.2])

/-- A rule that lets nobody drive. Scripts keep to it if loads are allowed. -/
structure Rules (su : Setup) (own task : Step → Bool) : Prop where
  path : ∀ p, own (.runPath p) = false
  paths : ∀ ps, own (.runPaths ps) = false
  navigates : Navigates task
  scripts : ∀ p sc, own (.load p) = true → su.catalog.script? p = some sc →
    Step.allEvery own task sc.body = true

/-- A move that keeps to a rule, with all that it starts. It leaves the other tasks alone, unless it
may ask them to end. -/
structure Lawful (own task : Step → Bool) (w v : World) (m : Move) : Prop where
  frames : ∀ g ∈ m.frames, g.Keeps own task
  newcomers : Newcomers task w.core v.core
  old : (∀ i, own (.abort i) = false) → ∀ (i : Nat) (a : Activity), w.core.tasks[i]? = some a →
    v.core.tasks[i]? = some a

/-- All tasks are as they were, with those that were started at the end. -/
theorem Lawful.new {m : Move} (h : Lawful own task w v m) (ha : ∀ i, own (.abort i) = false) :
    ∃ new, v.core.tasks = w.core.tasks ++ new ∧ ∀ a ∈ new, Newcomer task a := by
  obtain ⟨new, hnew⟩ : w.core.tasks <+: v.core.tasks :=
    List.prefix_iff_getElem?.2 fun i hi => h.old ha i _ (List.getElem?_eq_getElem hi)
  refine ⟨new, hnew.symm, fun a hm => ?_⟩
  obtain ⟨i, hi⟩ := List.mem_iff_getElem?.1 hm
  refine h.newcomers (w.core.tasks.length + i) a (by omega) ?_
  rw [← hnew, List.getElem?_append_right (by omega), Nat.add_sub_cancel_left, hi]

/-! Steps -/

theorem Effect.newcomers {s : Step} {k : Core} {b : Begun} (h : Effect su w s k b)
    (hs : s.every own task = true) (hn : Navigates task)
    (hd : ∀ p, own (.runPath p) = false) : Newcomers task w.core k := by
  cases h with
  | page o _ hst => exact .of_spawn rfl fun st hm => hst st hm ▸ hn.newcomer
  | spawn body after hst =>
    have hb : Step.allEvery task task body = true := (Bool.and_eq_true_iff.1 hs).2
    refine .of_spawn rfl fun st hm => ?_
    obtain rfl := List.mem_singleton.1 hm
    rcases hst with rfl | rfl
    · exact .of_steps hb
    · exact .of_later hb
  | drive _ => simp [Step.every, hd] at hs
  | abort _ => exact .of_length (by simp)
  | _ => exact .of_length rfl

theorem Effect.old {s : Step} {k : Core} {b : Begun} (h : Effect su w s k b)
    (hs : own s = true) (ha : ∀ i, own (.abort i) = false) {i : Nat} {a : Activity}
    (hi : w.core.tasks[i]? = some a) : k.tasks[i]? = some a := by
  have spawned (sts : List (List Frame)) : (w.core.spawn sts).tasks[i]? = some a := by
    rw [Core.spawn, List.getElem?_append_left (lt_of_getElem? hi), hi]
  cases h with
  | page => exact spawned _
  | spawn => exact spawned _
  | drive hd => rw [(World.drive_eq_ok hd).2.1]; exact spawned _
  | abort => simp [ha] at hs
  | _ => exact hi

theorem Wait.keeps {s : Step} {f : Frame} (h : Wait su s f) (hs : own s = true) : f.Keeps own task := by
  cases h with
  | sleep => trivial
  | yield => trivial
  | poll _ _ hp => exact ⟨s, Step.speaks_of_waits? hp, hs⟩
  | load => exact ⟨_, rfl, hs⟩

theorem Effect.keeps {s : Step} {k : Core} {f : Frame} (h : Effect su w s k (.within f))
    (hs : own s = true)
    (hd : ∀ p, own (.runPath p) = false) (hds : ∀ ps, own (.runPaths ps) = false)
    (ht : ∀ t ∈ w.registry.tests, Step.allEvery own task t.body = true) : f.Keeps own task := by
  cases h with
  | wait _ hf => exact hf.keeps hs
  | run hg =>
    unfold Registry.beginRun at hg
    split_ifs at hg
    obtain ⟨rfl, -⟩ := Prod.mk.inj (Except.ok.inj hg)
    exact ht
  | load path => exact hs
  | join => trivial
  | abort => trivial
  | drive _ => simp [hd] at hs
  | driveAll _ => simp [hds] at hs

namespace Frame

theorem keeps_stepOver (w : World) (who : Origin) (found : List Nat) (s : Step) {rest : List Step}
    (o : Outcome) (h : Step.allEvery own task rest = true) :
    ∀ g ∈ (stepOver w who found s rest o).2.frames, g.Keeps own task := by
  rcases (world_stepOver w who found s rest o).2 with ⟨found', he⟩ | he <;>
    simp [he, Move.frames, Keeps, h]

theorem lawful_still {m : Move} (hv : v.core.tasks = w.core.tasks)
    (hm : ∀ g ∈ m.frames, g.Keeps own task) : Lawful own task w v m :=
  ⟨hm, .of_length (congrArg List.length hv), fun _ i a ha => by rw [hv]; exact ha⟩

theorem lawful_runSteps (hr : Rules su own task) {who : Origin} {found : List Nat}
    {steps : List Step} (hs : Step.allEvery own task steps = true)
    (ht : ∀ t ∈ w.registry.tests, Step.allEvery own task t.body = true) :
    Lawful own task w (runSteps su w who found steps).1 (runSteps su w who found steps).2 := by
  cases steps with
  | nil => exact lawful_still rfl (by simp [runSteps, Move.frames])
  | cons s rest =>
    obtain ⟨hs, hrest⟩ := Bool.and_eq_true_iff.1 hs
    have he := World.begin_effect su found w s
    have hnew := he.newcomers (by rw [Step.every_bare]; exact hs) hr.navigates hr.path
    have hold := he.old (Step.own_of_every hs)
    rcases hb : w.begin su found s with ⟨v, b⟩
    rw [hb] at he hnew hold
    simp only [runSteps, hb]
    rcases b with o | f
    · refine ⟨keeps_stepOver v who found s o hrest, ?_, ?_⟩
      · rw [(world_stepOver v who found s rest o).1]
        exact hnew
      · rw [(world_stepOver v who found s rest o).1]
        exact fun ha i a hi => hold ha hi
    · refine ⟨fun g hg => ?_, hnew, fun ha i a hi => hold ha hi⟩
      obtain rfl | rfl : g = f ∨ g = .steps who found (some s) rest := by simpa [Move.frames] using hg
      · exact he.keeps (Step.own_of_every hs) hr.path hr.paths ht
      · exact hrest

theorem lawful_runLoad (hr : Rules su own task) (self : Nat) {path : String} {phase : LoadPhase}
    (hl : own (.load path) = true)
    (ht : ∀ t ∈ w.registry.tests, Step.allEvery own task t.body = true) :
    Lawful own task w (runLoad su w self path phase).1 (runLoad su w self path phase).2 := by
  have left (u : World) (k : Nat) (o : Outcome) (hu : u.core.tasks = w.core.tasks) :
      Lawful own task w (leaveLoad u k o).1 (leaveLoad u k o).2 :=
    lawful_still (by simp only [leaveLoad, World.core_leaveLock, hu]) (by simp [leaveLoad, Move.frames])
  cases phase with
  | arriving =>
    simp only [runLoad]
    split_ifs <;> exact lawful_still rfl (by simp [Move.frames, Keeps, hl])
  | queueing k =>
    simp only [runLoad]
    split_ifs <;> exact lawful_still rfl (by simp [Move.frames, Keeps, hl])
  | entered k =>
    simp only [runLoad]
    split_ifs
    · exact lawful_still rfl (by simp [Move.frames, Keeps, hl])
    · exact lawful_still rfl (by simp [Move.frames, Keeps, hl])
    · exact left _ k _ rfl
  | loading k =>
    simp only [runLoad]
    split_ifs
    · exact left _ k _ rfl
    · split
      · exact left _ k _ rfl
      next sc hsc =>
        have hb := hr.scripts path sc hl hsc
        exact lawful_still rfl (by simp [Move.frames, Keeps, hl, hb])
  | registering k =>
    simp only [runLoad]
    split
    next tests g hg =>
      unfold Registry.beginRun at hg
      split_ifs at hg
      obtain ⟨rfl, -⟩ := Prod.mk.inj (Except.ok.inj hg)
      refine lawful_still rfl fun g hm => ?_
      obtain rfl | rfl : g = .pass none w.registry.tests ∨ g = .load path (.running k) := by
        simpa [Move.frames] using hm
      · exact ht
      · exact hl
    next => exact lawful_still rfl (by simp [Move.frames, Keeps, hl])
  | running k => exact left _ k _ rfl

theorem lawful_resumeLoad {path : String} {phase : LoadPhase} (o : Outcome)
    (hl : own (.load path) = true) :
    Lawful own task w (resumeLoad w path phase o).1 (resumeLoad w path phase o).2 := by
  have left (u : World) (k : Nat) (o : Outcome) (hu : u.core.tasks = w.core.tasks) :
      Lawful own task w (leaveLoad u k o).1 (leaveLoad u k o).2 :=
    lawful_still (by simp only [leaveLoad, World.core_leaveLock, hu]) (by simp [leaveLoad, Move.frames])
  unfold resumeLoad
  split
  · exact left _ _ _ rfl
  · exact left _ _ _ rfl
  · exact lawful_still rfl (by simp [Move.frames, Keeps, hl])
  · split
    · exact left _ _ _ rfl
    · exact lawful_still rfl (by simp [Move.frames])

theorem lawful_runPass {queue : List Test}
    (hq : ∀ t ∈ queue, Step.allEvery own task t.body = true) :
    Lawful own task w (runPass w queue).1 (runPass w queue).2 := by
  cases queue with
  | nil => exact lawful_still rfl (by simp [runPass, finish, Move.frames])
  | cons t queue =>
    simp only [runPass]
    split
    · exact lawful_still rfl (by simp [abortPass, finish, Move.frames])
    · refine lawful_still rfl fun g hm => ?_
      rcases List.mem_cons.1 hm with rfl | hm
      · exact hq t (by simp)
      · obtain rfl := List.mem_singleton.1 hm
        exact fun u hu => hq u (by simp [hu])

theorem lawful_resumePass {t : Test} {queue : List Test} (o : Outcome)
    (hq : ∀ t ∈ queue, Step.allEvery own task t.body = true) :
    Lawful own task w (resumePass w t queue o).1 (resumePass w t queue o).2 := by
  cases o with
  | value v => exact lawful_still rfl (by simpa [resumePass, Move.frames, Keeps] using hq)
  | fault f => exact lawful_still rfl (by simp [resumePass, abortPass, finish, Move.frames])
  | panic p => exact lawful_still rfl (by simp [resumePass, abortPass, finish, Move.frames])

theorem lawful_run (hr : Rules su own task) (self : Nat) {f : Frame} (hf : f.Keeps own task)
    (ht : ∀ t ∈ w.registry.tests, Step.allEvery own task t.body = true) :
    Lawful own task w (f.run su w self).1 (f.run su w self).2 := by
  cases f with
  | steps who found cur rest => exact lawful_runSteps hr hf ht
  | sleep ms =>
    simp only [run, runSleep]
    split_ifs <;> exact lawful_still rfl (by simp [Move.frames, Keeps])
  | pause due =>
    simp only [run, runPause]
    split_ifs <;> exact lawful_still rfl (by simp [Move.frames, Keeps])
  | yield yielded =>
    simp only [run, runYield]
    split_ifs <;> exact lawful_still rfl (by simp [Move.frames, Keeps])
  | poll c msg wait polls =>
    simp only [run, runPoll]
    split
    · exact lawful_still rfl (by simp [Move.frames])
    · split
      · exact lawful_still rfl (by simp [Move.frames])
      · exact lawful_still rfl (by simp [Move.frames])
      · exact lawful_still rfl (by simp [Move.frames])
      · split
        · exact lawful_still rfl (by simpa [Move.frames, Keeps] using hf)
        · exact lawful_still rfl (by simpa [Move.frames, Keeps] using hf)
  | waitLoad loaded l =>
    cases l with
    | none =>
      simp only [run, runWaitLoad]
      split_ifs <;> exact lawful_still rfl (by simpa [Move.frames, Keeps] using hf)
    | some l =>
      simp only [run, runWaitLoad]
      split_ifs
      · exact lawful_still rfl (by simp [Move.frames])
      · exact lawful_still rfl (by simpa [Move.frames, Keeps] using hf)
      · exact lawful_still rfl (by simpa [Move.frames, Keeps] using hf)
  | load path phase => exact lawful_runLoad hr self hf ht
  | pass cur queue => exact lawful_runPass hf
  | join task =>
    simp only [run, runJoin]
    split
    · split_ifs <;> exact lawful_still rfl (by simp [Move.frames, Keeps])
    · exact lawful_still (by rw [World.core_waitFor]) (by simp [Move.frames, Keeps])
  | drive d phase => exact hf.elim
  | driveAll start rest results => exact hf.elim

theorem lawful_resume {f : Frame} (o : Outcome) (hf : f.Keeps own task) :
    Lawful own task w (f.resume w o).1 (f.resume w o).2 := by
  unfold resume
  split
  · exact lawful_still (congrArg Core.tasks (world_stepOver w _ _ _ _ o).1) (keeps_stepOver w _ _ _ o hf)
  · exact lawful_resumePass o hf
  · exact lawful_resumeLoad o hf
  · exact hf.elim
  · exact lawful_still rfl (by simpa [Move.frames] using hf)
  · exact lawful_still rfl (by simpa [Move.frames] using hf)
  · exact lawful_still rfl (by simp [Move.frames])

/-- A frame that keeps to a rule leaves only such frames in its place, and starts only tasks that
keep to it. -/
theorem lawful_act (hr : Rules su own task) (self : Nat) {f : Frame} (ret : Option Outcome)
    (hf : f.Keeps own task)
    (ht : ∀ t ∈ w.registry.tests, Step.allEvery own task t.body = true) :
    Lawful own task w (f.act su w self ret).1 (f.act su w self ret).2 := by
  cases ret with
  | none => exact lawful_run hr self hf ht
  | some o => exact lawful_resume o hf

end Frame

end PageTest
