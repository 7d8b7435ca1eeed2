import PageTest.Proofs.Runs.Rules

/-! Run passes and loads among all that tasks are in the middle of. Each move has one part to play in
the registry and the lock, and leaves as many passes and tickets as that part says. -/

namespace PageTest

namespace Frame

def isPass : Frame → Bool
  | .pass .. => true
  | _ => false

/-- The ticket that a load has drawn. -/
def ticket? : Frame → Option Nat
  | .load _ phase => World.ticketOf phase
  | _ => none

/-- The ticket of a load that was let through. -/
def inside? : Frame → Option Nat
  | .load _ (.entered k) | .load _ (.loading k) | .load _ (.registering k) | .load _ (.running k) => some k
  | _ => none

/-- A run pass in the middle of a test. -/
def inTest : Frame → Bool
  | .pass (some _) _ => true
  | _ => false

/-- Whether something can be on top of the frame. -/
def Sits : Frame → Prop
  | .pass none _ => False
  | .load _ (.loading _) | .load _ (.registering _) | .load _ (.running _) => True
  | .load .. => False
  | _ => True

theorem ticket?_of_inside {f : Frame} {k : Nat} (h : f.inside? = some k) : f.ticket? = some k := by
  cases f with
  | load path phase => cases phase <;> first | exact h | simp [inside?] at h
  | _ => simp [inside?] at h

theorem inside_of_sits {f : Frame} (hf : f.Sits) (hl : f.isLoad = true) : ∃ k, f.inside? = some k := by
  cases f with
  | load path phase => cases phase <;> first | exact hf.elim | exact ⟨_, rfl⟩
  | _ => simp [isLoad] at hl

theorem sits_of_plain {f : Frame} (hf : f.isPlain = true) : f.Sits := by
  cases f <;> trivial

theorem inTest_of_plain {f : Frame} (hf : f.isPlain = true) : f.inTest = false := by
  cases f <;> first | rfl | simp [isPlain] at hf

theorem pass_of_plain {f : Frame} (hf : f.isPlain = true) : f.isPass = false := by
  cases f <;> first | rfl | simp [isPlain] at hf

theorem ticket_of_plain {f : Frame} (hf : f.isPlain = true) : f.ticket? = none := by
  cases f <;> first | rfl | simp [isPlain] at hf

theorem ticket_of_pass {f : Frame} (hf : f.isPass = true) : f.ticket? = none := by
  cases f <;> first | rfl | exact absurd hf (by simp [isPass])

theorem inside_of_plain {f : Frame} (hf : f.isPlain = true) : f.inside? = none := by
  cases f <;> first | rfl | simp [isPlain] at hf

end Frame

/-- A stack in which all that waits for the frames above it can wait, and a run pass on top is between
two tests. -/
def Shaped : List Frame → Option Outcome → Prop
  | [], _ => True
  | f :: rest, ret => (if ret.isSome then f.Sits else f.inTest = false) ∧ ∀ g ∈ rest, g.Sits

/-- A move that leaves such a stack. -/
def Move.Seated : Move → Prop
  | goOn f | halt f => f.inTest = false
  | call f callee => f.Sits ∧ callee.inTest = false
  | leave _ => True

theorem Move.Seated.of_plain {m : Move} (hm : ∀ g ∈ m.frames, g.isPlain = true) : m.Seated := by
  cases m with
  | call f g =>
    exact ⟨Frame.sits_of_plain (hm f (by simp [frames])), Frame.inTest_of_plain (hm g (by simp [frames]))⟩
  | leave o => trivial
  | _ => exact Frame.inTest_of_plain (hm _ (by simp [frames]))

/-- What such a move leaves is such a stack again. -/
theorem Move.Seated.onto {m : Move} {rest : List Frame} (hm : m.Seated) (hs : ∀ g ∈ rest, g.Sits) :
    Shaped (m.onto rest).1 (m.onto rest).2 := by
  cases m with
  | goOn f => exact ⟨hm, hs⟩
  | halt f => exact ⟨hm, hs⟩
  | call f callee =>
    refine ⟨hm.2, fun g hg => ?_⟩
    rcases List.mem_cons.1 hg with rfl | hg
    · exact hm.1
    · exact hs g hg
  | leave o =>
    cases rest with
    | nil => trivial
    | cons g rest => exact ⟨hs g (by simp), fun g' hg => hs g' (by simp [hg])⟩

/-- Run passes among some frames. -/
def passes (fs : List Frame) : Nat := fs.countP Frame.isPass

/-- The tickets that some frames hold. -/
def tickets (fs : List Frame) : List Nat := fs.filterMap Frame.ticket?

section Plain

variable {fs : List Frame}

theorem passes_of_plain (h : ∀ g ∈ fs, g.isPlain = true) : passes fs = 0 := by
  rw [passes, List.countP_eq_zero]
  intro g hg
  simp [Frame.pass_of_plain (h g hg)]

theorem tickets_of_plain (h : ∀ g ∈ fs, g.isPlain = true) : tickets fs = [] :=
  List.filterMap_eq_nil_iff.2 fun g hg => Frame.ticket_of_plain (h g hg)

end Plain

/-- The part of a move in the registry and the lock. -/
inductive Part (su : Setup) (w : World) (f : Frame) : World → Move → Prop
  | none {v : World} {m : Move} : v.registry = w.registry → v.lock = w.lock →
      passes m.frames = passes [f] → tickets m.frames = tickets [f] →
      (∀ g ∈ m.frames, ∀ k, g.inside? = some k → f.inside? = some k ∨ w.lock.holder = some k) →
      Part su w f v m
  | register {s : Step} {t : Test} {v : World} {m : Move} :
      (∃ who found cur rest, f = .steps who found cur (s :: rest)) → s.bare.test? = some t →
      w.registry.register t = .ok v.registry → v.lock = w.lock →
      (∀ g ∈ m.frames, g.isPlain = true) → Part su w f v m
  | begin {v : World} {m : Move} {tests : List Test} : w.registry.beginRun = .ok (tests, v.registry) →
      v.lock = w.lock → passes m.frames = passes [f] + 1 → tickets m.frames = tickets [f] →
      (∀ g ∈ m.frames, ∀ k, g.inside? = some k → f.inside? = some k) → Part su w f v m
  | finish {v : World} {m : Move} {st : RunState} : f.isPass = true → st ≠ .running →
      v.registry = ⟨[], st⟩ → v.lock = w.lock → m.frames = [] → Part su w f v m
  | reset {v : World} {m : Move} {p : String} {k : Nat} : f = .load p (.entered k) →
      Frame.startsWith p su.driver.harness.pathStart = true → v.registry = .empty → v.lock = w.lock →
      passes m.frames = 0 → tickets m.frames = [k] →
      (∀ g ∈ m.frames, ∀ j, g.inside? = some j → j = k) → Part su w f v m
  | arrive {v : World} {m : Move} {p : String} {self : Nat} : f = .load p .arriving →
      v.registry = w.registry → v.lock = (w.lock.arrive self).2 →
      m.frames = [.load p (.queueing w.lock.tickets)] → Part su w f v m
  | leave {v : World} {m : Move} {k : Nat} : f.inside? = some k → v.registry = w.registry →
      v.lock = (w.lock.leave k).2 → m.frames = [] → Part su w f v m

variable {su : Setup} {own task : Step → Bool} {w v : World}

namespace Part

theorem of_plain {f : Frame} {m : Move} (hf : f.isPlain = true) (hm : ∀ g ∈ m.frames, g.isPlain = true)
    (hr : v.registry = w.registry) (hl : v.lock = w.lock) : Part su w f v m := by
  have hf' : ∀ g ∈ [f], g.isPlain = true := by simpa using hf
  refine .none hr hl (by rw [passes_of_plain hm, passes_of_plain hf'])
    (by rw [tickets_of_plain hm, tickets_of_plain hf']) fun g hg k hk => ?_
  simp [Frame.inside_of_plain (hm g hg)] at hk

/-- What a frame registers keeps to its own rule. -/
theorem keeps {f : Frame} {m : Move} (h : Part su w f v m) (hinfo : ∀ msg, own (.info msg) = true)
    (hf : f.Keeps own task) (ht : w.registry.Keeps own task) : v.registry.Keeps own task := by
  cases h with
  | none hg => rwa [hg]
  | register hs hu hg =>
    obtain ⟨who, found, cur, rest, rfl⟩ := hs
    exact ht.register hinfo (Bool.and_eq_true_iff.1 hf).1 hu hg
  | begin hg => exact .of_nil (Registry.tests_beginRun hg)
  | finish _ _ hg => exact .of_nil (by rw [hg])
  | reset _ _ hg => exact .of_nil (by rw [hg]; rfl)
  | arrive _ hg => rwa [hg]
  | leave _ hg => rwa [hg]

end Part

theorem Errand.part {f : Frame} {ret : Option Outcome} {m : Move} (h : Errand w f ret v m)
    (hf : f.isPlain = true) (hk : f.Keeps own task) (hr : Rules su own task)
    (hreset : own .reset = false) : Part su w f v m ∧ m.Seated := by
  have hs (s : Step) (rest : List Step) (hk : Step.allEvery own task (s :: rest) = true) :
      own s.bare = true :=
    Step.own_of_every (Bool.and_eq_true_iff.1 hk).1
  cases h with
  | aside es hm hreg hlock => exact ⟨.of_plain hf hm hreg hlock, .of_plain hm⟩
  | enroll ht hg hl _ hm => exact ⟨.register ⟨_, _, _, _, rfl⟩ ht hg hl hm, .of_plain hm⟩
  | clear hb =>
    have := hs _ _ hk
    simp [hb, hreset] at this
  | begin _ hg hl =>
    exact ⟨.begin hg hl rfl rfl (by simp [Move.frames, Frame.inside?]), ⟨trivial, rfl⟩⟩
  | load _ hreg hlock =>
    refine ⟨.none hreg hlock rfl rfl ?_, ⟨trivial, rfl⟩⟩
    simp [Move.frames, Frame.inside?]
  | drive hb =>
    have := hs _ _ hk
    rcases hb with ⟨p, hb⟩ | ⟨ps, hb⟩
    · simp [hb, hr.path] at this
    · simp [hb, hr.paths] at this

namespace Frame

/-! Run passes -/

theorem part_runPass (cur : Option Test) (queue : List Test) :
    Part su w (.pass cur queue) (runPass w queue).1 (runPass w queue).2 ∧ (runPass w queue).2.Seated := by
  cases queue with
  | nil => exact ⟨.finish rfl (by simp) rfl rfl rfl, trivial⟩
  | cons t queue =>
    simp only [runPass]
    split
    · exact ⟨.finish rfl (by simp) rfl rfl rfl, trivial⟩
    · exact ⟨.none rfl rfl rfl rfl (by simp [Move.frames, inside?]), ⟨trivial, rfl⟩⟩

theorem part_resumePass (t : Test) (queue : List Test) (o : Outcome) :
    Part su w (.pass (some t) queue) (resumePass w t queue o).1 (resumePass w t queue o).2 ∧
      (resumePass w t queue o).2.Seated := by
  cases o with
  | value v =>
    exact ⟨.none rfl rfl rfl rfl (by simp [resumePass, Move.frames, inside?]), rfl⟩
  | fault f => exact ⟨.finish rfl (by simp) rfl rfl rfl, trivial⟩
  | panic p => exact ⟨.finish rfl (by simp) rfl rfl rfl, trivial⟩

/-! Loads -/

theorem part_leaveLoad {f : Frame} {u : World} {k : Nat} (o : Outcome) (hf : f.inside? = some k)
    (hr : u.registry = w.registry) (hl : u.lock = w.lock) :
    Part su w f (leaveLoad u k o).1 (leaveLoad u k o).2 := by
  refine .leave hf ?_ ?_ rfl
  · exact (congrArg Core.registry (World.core_leaveLock u k)).trans hr
  · rw [← hl]
    exact congrArg Core.lock (World.core_leaveLock u k)

theorem part_runLoad (self : Nat) (path : String) (phase : LoadPhase) :
    Part su w (.load path phase) (runLoad su w self path phase).1 (runLoad su w self path phase).2 ∧
      (runLoad su w self path phase).2.Seated := by
  cases phase with
  | arriving =>
    simp only [runLoad]
    split_ifs
    · exact ⟨.none rfl rfl rfl rfl (by simp [Move.frames, inside?]), rfl⟩
    · have ht : (w.lock.arrive self).1 = w.lock.tickets := by unfold Lock.arrive; split <;> rfl
      exact ⟨.arrive rfl rfl rfl (by rw [Move.frames, ht]), rfl⟩
  | queueing k =>
    simp only [runLoad]
    split_ifs with hh
    · refine ⟨.none rfl rfl rfl rfl fun g hg j hj => .inr ?_, rfl⟩
      obtain rfl : g = .load path (.entered k) := by simpa [Move.frames] using hg
      rw [hh]
      exact hj
    · exact ⟨.none rfl rfl rfl rfl (by simp [Move.frames, inside?]), rfl⟩
  | entered k =>
    simp only [runLoad]
    split_ifs with hs hd
    · exact ⟨.reset rfl hs rfl rfl rfl rfl (by simp [Move.frames, inside?, eq_comm]), rfl⟩
    · exact ⟨.reset rfl hs rfl rfl rfl rfl (by simp [Move.frames, inside?, eq_comm]), ⟨trivial, rfl⟩⟩
    · exact ⟨part_leaveLoad _ rfl rfl rfl, trivial⟩
  | loading k =>
    simp only [runLoad]
    split_ifs
    · exact ⟨part_leaveLoad _ rfl rfl rfl, trivial⟩
    · split
      · exact ⟨part_leaveLoad _ rfl rfl rfl, trivial⟩
      · exact ⟨.none rfl rfl rfl rfl (by simp [Move.frames, inside?]), ⟨trivial, rfl⟩⟩
  | registering k =>
    simp only [runLoad]
    split
    next hg => exact ⟨.begin hg rfl rfl rfl (by simp [Move.frames, inside?]), ⟨trivial, rfl⟩⟩
    next => exact ⟨.none rfl rfl rfl rfl (by simp [Move.frames, inside?]), rfl⟩
  | running k => exact ⟨part_leaveLoad _ rfl rfl rfl, trivial⟩

theorem part_resumeLoad {path : String} {phase : LoadPhase} (o : Outcome)
    (hf : (Frame.load path phase).Sits) :
    Part su w (.load path phase) (resumeLoad w path phase o).1 (resumeLoad w path phase o).2 ∧
      (resumeLoad w path phase o).2.Seated := by
  unfold resumeLoad
  split
  · exact ⟨part_leaveLoad _ rfl rfl rfl, trivial⟩
  · exact ⟨part_leaveLoad _ rfl rfl rfl, trivial⟩
  · exact ⟨.none rfl rfl rfl rfl fun g hg k hk => .inl (List.mem_singleton.1 hg ▸ hk), rfl⟩
  · cases phase <;> first | exact hf.elim | exact ⟨part_leaveLoad _ rfl rfl rfl, trivial⟩

/-- The part that a move plays, whatever frame makes it. -/
theorem part_act (hr : Rules su own task) (hreset : own .reset = false) (self : Nat) {f : Frame}
    (ret : Option Outcome) (hk : f.Keeps own task) (hs : ret.isSome → f.Sits) :
    Part su w f (f.act su w self ret).1 (f.act su w self ret).2 ∧ (f.act su w self ret).2.Seated := by
  cases f with
  | load path phase =>
    cases ret with
    | none => exact part_runLoad self path phase
    | some o => exact part_resumeLoad o (hs rfl)
  | pass cur queue =>
    cases ret with
    | none => exact part_runPass cur queue
    | some o =>
      cases cur with
      | none => exact (hs rfl).elim
      | some t => exact part_resumePass t queue o
  | drive d phase => exact hk.elim
  | driveAll start rest results => exact hk.elim
  | _ => exact (errand_act su w self ret rfl).part rfl hk hr hreset

end Frame

end PageTest
