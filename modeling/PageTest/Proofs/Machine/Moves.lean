import PageTest.Proofs.Machine.Conduct

/-! A frame that keeps to a code moves within its limits, and what it leaves on the stack keeps to
the code again. -/

namespace PageTest

variable {su : Setup} {c : Code} {r : Role} {w : World}

/-- A move within the limits of a code. -/
def Behaves (c : Code) (r : Role) (w : World) (p : World × Move) : Prop :=
  Conduct c r w.core p.1.core ∧ p.2.Orderly c r

theorem Behaves.still {w' : World} {m : Move} (h : w'.core = w.core) (hm : m.Orderly c r) :
    Behaves c r w (w', m) :=
  ⟨by rw [h]; exact .refl _, hm⟩

theorem Behaves.after {v : World} {p : World × Move} (h : Conduct c r w.core v.core)
    (hp : Behaves c r v p) : Behaves c r w p := ⟨h.trans hp.1, hp.2⟩

/-- What the surroundings owe to a body: a run pass of its own finds tests that keep to the code,
and the load it is within has the lock. -/
structure Hosted (c : Code) (r : Role) (w : World) : Prop where
  tests : (r.manners c).runs = true → ∀ t ∈ w.registry.tests, t.obeys c = true
  lock : ∀ k, r = .within k → c.body.loads = true → w.lock.holder = some k ∧ k < w.lock.tickets

/-! Steps -/

theorem Wait.obeys {s : Step} {f : Frame} (h : Wait su s f) (hs : s.obeys c (r.manners c) = true) :
    f.Obeys c r := by
  cases h with
  | sleep => trivial
  | yield => trivial
  | poll _ _ hp => exact Step.speaks_of_obeys hs (Step.speaks_of_waits? hp)
  | load => exact Step.speaks_of_obeys hs rfl

theorem orderly_load (hd : (r.manners c).drives = true) (path : String) :
    Orderly c .task [.load path .arriving] none := by
  have ht : c.task.drives = true := by
    cases r with
    | within k => simp [Role.manners, c.drives_body] at hd
    | task => exact hd
  exact ⟨⟨c.loads_drives ht, .inl rfl⟩, by simp, by simp⟩

theorem orderly_spawned {body : List Step} {after i : Nat} {st : List Frame}
    (hb : Step.allObey c c.task body = true)
    (h : st = [.steps (.task i) [] none body] ∨ st = [.sleep after, .steps (.task i) [] none body]) :
    Orderly c .task st none := by
  have hs : (Frame.steps (.task i) [] none body).Obeys c .task := Step.allObey_iff.1 hb
  rcases h with rfl | rfl
  · exact ⟨hs, by simp, by simp⟩
  · exact ⟨trivial, by simp, by simpa using ⟨hs, rfl⟩⟩

theorem Effect.conduct {s : Step} {k : Core} {b : Begun} (h : Effect su w s k b)
    (hs : s.obeys c (r.manners c) = true) : Conduct c r w.core k := by
  cases h with
  | answer => exact .refl _
  | page o _ hst => exact .spawn fun st hm => hst st hm ▸ orderly_navigation c
  | say hp _ hk => exact .say (.inl ⟨Step.speaks_of_obeys hs hp, hk⟩)
  | append hk => exact .say (.inr (.inl (by simpa [Step.obeys, hk] using hs)))
  | drain => exact .drain (.inl hs)
  | register ht hg => exact .register (Step.test?_obeys hs ht).1 (Step.test?_obeys hs ht).2 hg
  | refuse => exact .refl _
  | reset => exact .reset hs
  | wait => exact .refl _
  | run hg =>
    unfold Registry.beginRun at hg
    split_ifs at hg
    obtain ⟨-, rfl⟩ := Prod.mk.inj (Except.ok.inj hg)
    exact .pass .running hs
  | load => exact .refl _
  | spawn body after hst =>
    simp only [Step.obeys, Bool.and_eq_true] at hs
    exact (Conduct.handOut (k := w.core) w.tasks.length (by simp)).trans
      (.spawn fun st hm => List.mem_singleton.1 hm ▸ orderly_spawned hs.2 hst)
  | join => exact .takeBack _
  | abort hi => exact (Conduct.cancel _ (.inl (List.mem_of_getElem? hi))).trans (.takeBack _)
  | drive hd =>
    rw [(World.drive_eq_ok hd).2.1]
    exact .spawn fun st hm => List.mem_singleton.1 hm ▸ orderly_load hs _
  | driveAll => exact .refl _

theorem Effect.obeys {s : Step} {k : Core} {f : Frame} (h : Effect su w s k (.within f))
    (hs : s.obeys c (r.manners c) = true) (hw : Hosted c r w) : f.Obeys c r := by
  cases h with
  | wait _ hf => exact hf.obeys hs
  | run hg =>
    unfold Registry.beginRun at hg
    split_ifs at hg
    obtain ⟨rfl, -⟩ := Prod.mk.inj (Except.ok.inj hg)
    exact ⟨hs, hw.tests hs⟩
  | load path => exact ⟨hs, .inl rfl⟩
  | join => trivial
  | abort => trivial
  | drive hd => rw [(World.drive_eq_ok hd).2.2]; exact hs
  | driveAll => exact hs

namespace Frame

@[simp] theorem core_noteFault (w : World) (who : Origin) (s : Step) (f : Fault) :
    (noteFault w who s f).core = w.core := by
  unfold noteFault; split <;> simp

theorem registry_noteFault (w : World) (who : Origin) (s : Step) (f : Fault) :
    (noteFault w who s f).registry = w.registry := congrArg Core.registry (core_noteFault w who s f)

/-- After a step, a body goes on or is left. -/
theorem behaves_stepOver (w : World) (who : Origin) (found : List Nat) (s : Step)
    {rest : List Step} (o : Outcome)
    (hs : ∀ s ∈ rest, s.obeys c (r.manners c) = true) :
    Behaves c r w (stepOver w who found s rest o) := by
  cases o with
  | value v => exact .still (World.core_note _ _ _) hs
  | fault f =>
    refine .still (core_noteFault _ _ _ _) ?_
    split_ifs
    · exact hs
    · trivial
  | panic p => exact .still rfl trivial

theorem behaves_runSteps {who : Origin} {found : List Nat} {steps : List Step}
    (hs : ∀ s ∈ steps, s.obeys c (r.manners c) = true) (hw : Hosted c r w) :
    Behaves c r w (runSteps su w who found steps) := by
  cases steps with
  | nil => exact .still rfl trivial
  | cons s rest =>
    have he := World.begin_effect su found w s
    have hb : s.bare.obeys c (r.manners c) = true := by rw [Step.obeys_bare]; exact hs s (by simp)
    have hrest : ∀ s ∈ rest, s.obeys c (r.manners c) = true := fun s' h => hs s' (by simp [h])
    have hc := he.conduct hb
    rcases hbeg : w.begin su found s with ⟨v, b⟩
    rw [hbeg] at he hc
    simp only [runSteps, hbeg]
    rcases b with o | f
    · obtain ⟨h1, h2⟩ := behaves_stepOver v who found s o hrest
      exact ⟨hc.trans h1, h2⟩
    · exact ⟨hc, hrest, rfl, he.obeys hb hw⟩

/-! Waiting -/

theorem behaves_runSleep (self ms : Nat) : Behaves c r w (runSleep w self ms) := by
  unfold runSleep; split_ifs <;> exact .still rfl trivial

theorem behaves_runPause (due : Nat) : Behaves c r w (runPause w due) := by
  unfold runPause; split_ifs <;> exact .still rfl trivial

theorem behaves_runYield (self : Nat) (yielded : Bool) :
    Behaves c r w (runYield w self yielded) := by
  unfold runYield; split_ifs <;> exact .still rfl trivial

theorem behaves_runPoll {cond : Condition} {msg : String} {wait : WaitOptions} {polls : Nat}
    (h : (r.manners c).speaks = true) : Behaves c r w (runPoll w cond msg wait polls) := by
  unfold runPoll
  split
  · exact ⟨.say (.inl ⟨h, rfl⟩), trivial⟩
  · split
    · exact .still rfl trivial
    · exact .still rfl trivial
    · exact ⟨.say (.inl ⟨h, rfl⟩), trivial⟩
    · split
      · exact .still rfl ⟨h, rfl, trivial⟩
      · exact .still rfl h

theorem behaves_runWaitLoad {loaded : Bool} {l : Option Nat} (h : (r.manners c).speaks = true) :
    Behaves c r w (runWaitLoad su w loaded l) := by
  cases l with
  | none =>
    simp only [runWaitLoad]
    split <;> exact .still rfl h
  | some l =>
    simp only [runWaitLoad]
    split
    · split
      · exact ⟨.say (.inl ⟨h, rfl⟩), trivial⟩
      · exact ⟨.say (.inl ⟨h, rfl⟩), h⟩
    · exact .still rfl h

theorem behaves_runJoin (self task : Nat) : Behaves c r w (runJoin w self task) := by
  unfold runJoin
  split
  · split_ifs <;> exact .still rfl trivial
  · exact .still (World.core_waitFor w self task) trivial

/-! Run passes within a body -/

theorem behaves_finish (st : RunState) (h : (r.manners c).runs = true) :
    Behaves c r w (finish w st) :=
  ⟨.pass st h, trivial⟩

theorem voices_pass {kind : LogKind} (h : (r.manners c).runs = true)
    (hk : kind ∈ [.subtest, .info, .fail, .stack]) : c.Voices r kind := .inr (.inr ⟨h, hk⟩)

theorem behaves_abortPass (f : Failure) (h : (r.manners c).runs = true) :
    Behaves c r w (abortPass w f) :=
  ⟨((Conduct.say (voices_pass h (by simp))).trans (.say (voices_pass h (by simp)))).trans (.pass .aborted h), trivial⟩

theorem behaves_runPass {queue : List Test} (h : (r.manners c).runs = true)
    (hq : ∀ t ∈ queue, t.obeys c = true) : Behaves c r w (runPass w queue) := by
  cases queue with
  | nil => exact behaves_finish .completed h
  | cons t queue =>
    have hsay : Conduct c r w.core ((w.append .subtest t.name).append .info (Subtest.entering t.name)).core :=
      (Conduct.say (voices_pass h (by simp))).trans (.say (voices_pass h (by simp)))
    unfold runPass
    dsimp only
    split
    next p _ =>
      obtain ⟨h1, h2⟩ := behaves_abortPass (w := (w.append .subtest t.name).append .info (Subtest.entering t.name))
        (.ofPanic t.name p) h
      exact ⟨hsay.trans h1, h2⟩
    next =>
      refine ⟨hsay, ⟨h, fun u hu => hq u (by simp [hu])⟩, rfl, ?_⟩
      have hr : r.manners c = c.body := by
        cases r with
        | within k => rfl
        | task => simp [Role.manners, c.runs_task] at h
      have ht := Step.allObey_iff.1 (hq t (by simp))
      exact fun s hs => hr ▸ ht s hs

theorem behaves_resumePass {t : Test} {queue : List Test} (o : Outcome)
    (h : (r.manners c).runs = true) (hq : ∀ t ∈ queue, t.obeys c = true) :
    Behaves c r w (resumePass w t queue o) := by
  cases o with
  | value v => exact ⟨.say (voices_pass h (by simp)), h, hq⟩
  | fault f => exact behaves_abortPass _ h
  | panic p => exact behaves_abortPass _ h

/-! Loads and drivers -/

/-- A load within another stays in line. -/
theorem behaves_runLoad {k : Nat} (self : Nat) {path : String} {phase : LoadPhase}
    (hf : (Frame.load path phase).Obeys c (.within k)) (hw : Hosted c (.within k) w) :
    Behaves c (.within k) w (runLoad su w self path phase) := by
  obtain ⟨hl, hp⟩ := hf
  obtain ⟨hh, ht⟩ := hw.lock k rfl hl
  rcases hp with rfl | ⟨k₀, k', hk, rfl, hne⟩
  · unfold runLoad
    dsimp only
    split
    · exact .still rfl ⟨hl, .inl rfl⟩
    · have ha : w.lock.arrive self = (w.lock.tickets, ⟨w.lock.holder, w.lock.queue ++ [(w.lock.tickets, self)],
          w.lock.tickets + 1⟩) := by simp [Lock.arrive, hh]
      simp only [ha]
      refine ⟨{ Conduct.refl w.core with tickets := ?_, lock := ?_ }, hl,
        .inr ⟨k, _, rfl, rfl, by omega⟩⟩
      · exact Nat.le_succ _
      · exact fun hn => by simp [hl] at hn
  · obtain rfl : k = k₀ := by cases hk; rfl
    have hn : w.lock.holder ≠ some k' := by rw [hh]; simpa using fun h => hne h.symm
    simp only [runLoad, hn, if_false]
    exact .still rfl ⟨hl, .inr ⟨k, k', rfl, rfl, hne⟩⟩

theorem conduct_drainInto {d : Drive} (h : (r.manners c).drives = true) :
    Conduct c r w.core (drainInto w d).1.core := .drain (.inr h)

theorem behaves_joined {d : Drive} (how : TaskReport) (h : (r.manners c).drives = true) :
    Behaves c r w (joined w d how) := by
  unfold joined
  split
  · exact .still rfl h
  · exact .still rfl trivial

theorem conduct_cancel (t : Nat) (h : (r.manners c).drives = true) :
    Conduct c r w.core (w.cancel t).core := by
  rw [World.core_cancel]
  exact .cancel t (.inr h)

theorem behaves_runDrive (self : Nat) {d : Drive} {phase : DrivePhase}
    (h : (r.manners c).drives = true) : Behaves c r w (runDrive su w self d phase) := by
  cases phase with
  | look finished =>
    simp only [runDrive]
    refine .after (conduct_drainInto (d := d) h) ?_
    generalize (drainInto w d).1 = v, (drainInto w d).2 = e
    split
    · exact .still rfl trivial
    · split
      · exact .still (World.core_waitFor _ _ _) h
      · split
        · refine .after (conduct_cancel e.load h) (.still (World.core_waitFor _ _ _) h)
        · split
          · exact behaves_joined _ h
          · split
            · exact .still (World.core_waitFor v self e.load) h
            · exact .still (by simp) h
  | watch due =>
    simp only [runDrive]
    split
    · split
      · exact .still rfl h
      · exact .after (v := w.clearTimer self) (by rw [World.core_clearTimer]; exact .refl _) (behaves_joined _ h)
    · split
      · exact .still rfl h
      · exact .still rfl h
  | settling =>
    simp only [runDrive]
    split
    · exact .still rfl trivial
    · exact .still rfl trivial
    · exact .still rfl h
  | stopping =>
    simp only [runDrive]
    split
    · exact .still rfl trivial
    · exact .after (v := (drainInto w.spend d).1) (conduct_drainInto (w := w.spend) (d := d) h) (.still rfl trivial)
    · exact .still rfl h

theorem behaves_runDriveAll {start : Nat} {results : List RunReport} {paths : List String}
    (h : (r.manners c).drives = true) : Behaves c r w (runDriveAll su w start results paths) := by
  cases paths with
  | nil => exact .still rfl trivial
  | cons path rest =>
    cases hd : w.drive su path with
    | error p =>
      simp only [runDriveAll, hd]
      exact .still rfl trivial
    | ok vf =>
      obtain ⟨-, hv, hf⟩ := World.drive_eq_ok hd
      simp only [runDriveAll, hd]
      refine ⟨?_, h, rfl, hf ▸ h⟩
      rw [hv]
      exact .spawn fun st hm => List.mem_singleton.1 hm ▸ orderly_load h path

/-! All frames -/

/-- What a frame on top does. In a task of its own a load is no matter of the code. -/
theorem behaves_run (self : Nat) {f : Frame} (hf : f.Obeys c r) (hl : r = .task → f.isLoad = false)
    (hw : Hosted c r w) : Behaves c r w (f.run su w self) := by
  cases f with
  | steps who found cur rest => exact behaves_runSteps hf hw
  | sleep ms => exact behaves_runSleep self ms
  | pause due => exact behaves_runPause due
  | yield yielded => exact behaves_runYield self yielded
  | poll cond msg wait polls => exact behaves_runPoll hf
  | waitLoad loaded l => exact behaves_runWaitLoad hf
  | load path phase =>
    cases r with
    | within k => exact behaves_runLoad self hf hw
    | task => simp [isLoad] at hl
  | pass cur queue => exact behaves_runPass hf.1 hf.2
  | join task => exact behaves_runJoin self task
  | drive d phase => exact behaves_runDrive self hf
  | driveAll start rest results => exact behaves_runDriveAll hf

/-- What a frame does when the one above it is left. -/
theorem behaves_resume {f : Frame} (o : Outcome) (hf : f.Obeys c r) (hl : f.isLoad = false) :
    Behaves c r w (f.resume w o) := by
  unfold resume
  split
  · exact behaves_stepOver _ _ _ _ _ hf
  · exact behaves_resumePass _ hf.1 hf.2
  · simp [isLoad] at hl
  · exact .still rfl hf
  · exact .still rfl hf
  · exact .still rfl hf
  · exact .still rfl trivial

/-- What the frame on top does with its turn: it goes on, or takes up what the frame above it came
to. -/
def act (su : Setup) (w : World) (self : Nat) (f : Frame) : Option Outcome → World × Move
  | none => f.run su w self
  | some o => f.resume w o

theorem behaves_act (su : Setup) (self : Nat) {f : Frame} {rest : List Frame} {ret : Option Outcome}
    (hf : Orderly c r (f :: rest) ret) (hl : r = .task → f.isLoad = false) (hw : Hosted c r w) :
    Behaves c r w (f.act su w self ret) := by
  cases ret with
  | none => exact behaves_run self hf.1 hl hw
  | some o => exact behaves_resume o hf.1 (hf.2.1 rfl)

end Frame

/-- A stack after its frame on top has moved, with what is handed down. -/
def Move.onto (rest : List Frame) : Move → List Frame × Option Outcome
  | goOn f | halt f => (f :: rest, none)
  | call f callee => (callee :: f :: rest, none)
  | leave o => (rest, some o)

theorem Orderly.onto {f : Frame} {rest : List Frame} {ret : Option Outcome} {m : Move}
    (h : Orderly c r (f :: rest) ret) (hm : m.Orderly c r) :
    Orderly c r (m.onto rest).1 (m.onto rest).2 := by
  obtain ⟨-, -, hr⟩ := h
  cases m with
  | goOn f => exact ⟨hm, by simp [Move.onto], hr⟩
  | halt f => exact ⟨hm, by simp [Move.onto], hr⟩
  | call f callee =>
    refine ⟨hm.2.2, by simp [Move.onto], fun g hg => ?_⟩
    rcases List.mem_cons.1 hg with rfl | hg
    · exact ⟨hm.1, hm.2.1⟩
    · exact hr g hg
  | leave o =>
    cases rest with
    | nil => trivial
    | cons g rest => exact ⟨(hr g (by simp)).1, fun _ => (hr g (by simp)).2,
        fun g' hg' => hr g' (by simp [hg'])⟩

end PageTest
