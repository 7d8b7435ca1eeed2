import PageTest.Proofs.Machine.Effect

/-! Codes of conduct. A code says what the bodies of tests and scripts may do, and what tasks of
their own may do; those never write to the log. Whatever a body that keeps to a code puts on its
stack keeps to it as well. -/

namespace PageTest

/-- What the steps of a body may do, beside looking at the page and changing it. -/
structure Manners where
  /-- Checks and waits. -/
  speaks : Bool
  appends : LogKind → Bool
  drains : Bool
  drives : Bool
  loads : Bool
  runs : Bool
  resets : Bool
  registers : Bool
  spawns : Bool

structure Code where
  /-- For scripts and the bodies of tests. -/
  body : Manners
  /-- For tasks of their own. -/
  task : Manners
  drives_body : body.drives = false
  loads_drives : task.drives = true → task.loads = true
  speaks_task : task.speaks = false
  appends_task : ∀ kind, task.appends kind = false
  runs_task : task.runs = false

/-- Where a body runs: within the load that holds a ticket, or as a task of its own. -/
inductive Role where
  | within (ticket : Nat)
  | task

def Role.manners (c : Code) : Role → Manners
  | within _ => c.body
  | task => c.task

mutual

def Step.obeys (c : Code) (m : Manners) : Step → Bool
  | .ok .. | .is .. | .isnot .. | .info .. | .isDisplay .. | .isValue .. | .okChecked .. => m.speaks
  | .waitCond .. | .waitShown .. | .waitLoad => m.speaks
  | .append kind _ => (LogKind.ofWord? kind).all m.appends
  | .logs => m.drains
  | .runPath _ | .runPaths _ => m.drives
  | .load _ => m.loads
  | .run => m.runs
  | .reset => m.resets
  | .addTest _ body _ _ => m.registers && Step.allObey c c.body body
  | .addFunction _ => m.registers && c.body.speaks
  | .spawn body _ => m.spawns && Step.allObey c c.task body
  | .attempt s => s.obeys c m
  | _ => true

def Step.allObey (c : Code) (m : Manners) : List Step → Bool
  | [] => true
  | s :: rest => s.obeys c m && Step.allObey c m rest

end

def Test.obeys (c : Code) (t : Test) : Bool := Step.allObey c c.body t.body

def Script.obeys (c : Code) (s : Script) : Bool := Step.allObey c c.body s.body

theorem Step.allObey_iff {c : Code} {m : Manners} {ss : List Step} :
    Step.allObey c m ss = true ↔ ∀ s ∈ ss, s.obeys c m = true := by
  induction ss with
  | nil => simp [Step.allObey]
  | cons s rest ih => simp [Step.allObey, ih]

theorem Step.obeys_bare (c : Code) (m : Manners) (s : Step) : s.bare.obeys c m = s.obeys c m := by
  fun_induction Step.bare s
  case case1 s ih => rw [ih, Step.obeys]
  case case2 => rfl

theorem Step.speaks_of_obeys {c : Code} {m : Manners} {s : Step} (h : s.obeys c m = true)
    (hs : s.speaks = true) : m.speaks = true := by
  fun_induction Step.speaks s <;> simp_all [Step.obeys]

/-- What a step registers keeps to the code if the step does. -/
theorem Step.test?_obeys {c : Code} {m : Manners} {s : Step} {t : Test} (h : s.obeys c m = true)
    (ht : s.test? = some t) : t.obeys c = true ∧ m.registers = true := by
  fun_induction Step.test? s with
  | case1 name body early hidden =>
    obtain rfl := Option.some.inj ht
    simp only [Step.obeys, Bool.and_eq_true] at h
    exact ⟨h.2, h.1⟩
  | case2 f =>
    obtain rfl := Option.some.inj ht
    simp only [Step.obeys, Bool.and_eq_true] at h
    exact ⟨by simp [Test.obeys, Step.allObey, Step.obeys, h.2], h.1⟩
  | case3 s ih => exact ih (by simpa [Step.obeys] using h) ht
  | case4 => simp at ht

def Frame.isLoad : Frame → Bool
  | .load .. => true
  | _ => false

/-- A frame that keeps to a code. A load may stand in line, but not have its turn: within another
load it never gets one, and in a task of its own it is no longer a matter of the code. -/
def Frame.Obeys (c : Code) (r : Role) : Frame → Prop
  | .steps _ _ _ rest => ∀ s ∈ rest, s.obeys c (r.manners c) = true
  | .sleep _ | .pause _ | .yield _ | .join _ => True
  | .poll .. | .waitLoad .. => (r.manners c).speaks = true
  | .pass _ queue => (r.manners c).runs = true ∧ ∀ t ∈ queue, t.obeys c = true
  | .load _ phase => (r.manners c).loads = true ∧
      (phase = .arriving ∨ ∃ k k', r = .within k ∧ phase = .queueing k' ∧ k' ≠ k)
  | .drive .. | .driveAll .. => (r.manners c).drives = true

/-- A stack of frames that keep to a code. A load is only ever on top, and nothing is handed down to
it. -/
def Orderly (c : Code) (r : Role) : List Frame → Option Outcome → Prop
  | [], _ => True
  | f :: rest, ret => f.Obeys c r ∧ (ret.isSome → f.isLoad = false) ∧ ∀ g ∈ rest, g.Obeys c r ∧
      g.isLoad = false

def Move.Orderly (c : Code) (r : Role) : Move → Prop
  | .goOn f | .halt f => f.Obeys c r
  | .call f callee => f.Obeys c r ∧ f.isLoad = false ∧ callee.Obeys c r
  | .leave _ => True

/-- The kinds of entries that a body may write, by itself or through a run pass of its own. -/
def Code.Voices (c : Code) (r : Role) (kind : LogKind) : Prop :=
  ((r.manners c).speaks = true ∧ kind.isWord = true) ∨ (r.manners c).appends kind = true ∨
    ((r.manners c).runs = true ∧ kind ∈ [.subtest, .info, .fail, .stack])

theorem Code.not_voices_task {c : Code} {kind : LogKind} : ¬ c.Voices .task kind := by
  simp [Voices, Role.manners, c.speaks_task, c.appends_task, c.runs_task]

theorem orderly_navigation (c : Code) : Orderly c .task World.navigation none := by
  simp [Orderly, World.navigation, Frame.Obeys, Step.obeys]

end PageTest
