import PageTest.Proofs.Load.Turns

/-! A load of a path that is not supported leaves the registry and the page as they are. -/

namespace PageTest

def Frame.listens : Frame → Bool
  | .waitLoad .. => true
  | _ => false

namespace World

variable {su : Setup} {w v : World} {t : Nat}

theorem scene_wake? (w : World) (t : Option Nat) : (w.wake? t).scene = w.scene := by
  cases t with
  | none => rfl
  | some t => exact scene_wake w t

theorem scene_leaveLock (w : World) (k : Nat) : (w.leaveLock k).scene = w.scene := by
  unfold leaveLock
  exact scene_wake? _ _

/-- The page hears of a stack that is given up only from frames that listen to it. -/
theorem scene_dropFrames {stack : List Frame} (h : ∀ f ∈ stack, f.listens = false) (w : World) :
    (stack.foldl dropFrame w).scene = w.scene := by
  induction stack generalizing w with
  | nil => rfl
  | cons f rest ih =>
    rw [List.foldl_cons, ih fun g hg => h g (by simp [hg])]
    have hf := h f (by simp)
    cases f with
    | load p phase =>
      cases hk : ticketOf phase with
      | none => simp [dropFrame, hk]
      | some k => simpa [dropFrame, hk] using scene_leaveLock w k
    | waitLoad => simp [Frame.listens] at hf
    | _ => rfl

theorem scene_cancelNow (h : ∀ task, w.task? t = some task → ∀ f ∈ task.stack, f.listens = false) :
    (w.cancelNow t).scene = w.scene := by
  have hstack : ∀ f ∈ ((w.task? t).map (·.stack)).getD [], f.listens = false := by
    cases ht : w.task? t with
    | none => simp
    | some task => simpa using h task ht
  exact (scene_wake? _ _).trans (scene_dropFrames hstack _)

theorem scene_apply {rest : List Frame} {m : Move} (h : ∀ f ∈ (m.onto rest).1, f.listens = false) :
    (w.apply t rest m).scene = w.scene := by
  cases m with
  | halt f =>
    simp only [apply]
    split_ifs
    · refine scene_cancelNow fun task ht => ?_
      simp only [modifyTask, task?, List.getElem?_modify, if_true] at ht
      obtain ⟨task', -, rfl⟩ := Option.map_eq_some_iff.1 ht
      exact h
    · rfl
  | _ => rfl

/-- A move of a task that has no frame that listens to the page. -/
theorem scene_runTask {a : Activity} {f : Frame} {rest : List Frame} {m : Move}
    (ha : w.core.tasks[t]? = some a) (hs : a.stack = f :: rest)
    (hact : f.act su w t a.returned = (v, m))
    (h : ∀ f ∈ (m.onto rest).1, f.listens = false) : (w.runTask su t).scene = v.scene := by
  rw [getElem?_core] at ha
  obtain ⟨task, ht, rfl⟩ := Option.map_eq_some_iff.1 ha
  have hs' : task.stack = f :: rest := hs
  unfold runTask
  cases hr : task.returned with
  | none =>
    have hrun : f.run su w t = (v, m) := by simpa [Frame.act, Task.activity, hr] using hact
    simp only [ht, hs', hr, hrun]
    exact scene_apply h
  | some o =>
    have hrun : f.resume w o = (v, m) := by simpa [Frame.act, Task.activity, hr] using hact
    simp only [ht, hs', hr, hrun]
    exact scene_apply h

end World

theorem Frame.Obeys.listens {c : Code} {f : Frame} (h : f.Obeys c .task) : f.listens = false := by
  cases f with
  | waitLoad => exact absurd h (by simp [Frame.Obeys, Role.manners, c.speaks_task])
  | _ => rfl

variable {su : Setup} {c : Code} {p : String} {s : Story} {phase : LoadPhase}
variable {inner below : List Frame} {a : Activity} {t : Nat} {w : World} {ret : Option Outcome}

/-- A load that is to be rejected has not come further than to its turn. -/
theorem Doing.unsupported (h : Doing su c p s phase inner ret)
    (hp : Frame.startsWith p su.driver.harness.pathStart = false) :
    inner = [] ∧ ret = none ∧
      (phase = .arriving ∨ (∃ k, phase = .queueing k) ∨ ∃ k, phase = .entered k) := by
  cases h with
  | arriving => exact ⟨rfl, rfl, .inl rfl⟩
  | queueing k => exact ⟨rfl, rfl, .inr (.inl ⟨k, rfl⟩)⟩
  | entered k => exact ⟨rfl, rfl, .inr (.inr ⟨k, rfl⟩)⟩
  | delayed _ hs => simp [hp] at hs
  | loading _ hs => simp [hp] at hs
  | registering ho => exact absurd ho.supported (by simp [hp])
  | registered ho => exact absurd ho.supported (by simp [hp])
  | passing ho => exact absurd ho.supported (by simp [hp])
  | testing ho => exact absurd ho.supported (by simp [hp])
  | passed ho => exact absurd ho.supported (by simp [hp])
  | closing ho => exact absurd ho.supported (by simp [hp])
  | refused ho => exact absurd ho.supported (by simp [hp])

theorem runTask_unsupported (hd : Doing su c p s phase inner a.returned)
    (hp : Frame.startsWith p su.driver.harness.pathStart = false) (ha : w.core.tasks[t]? = some a)
    (hs : a.stack = inner ++ .load p phase :: below) (hb : ∀ g ∈ below, g.Obeys c .task) :
    (w.runTask su t).registry = w.registry ∧ (w.runTask su t).scene = w.scene := by
  obtain ⟨rfl, hret, hphase⟩ := hd.unsupported hp
  have hact : (Frame.load p phase).act su w t a.returned = Frame.runLoad su w t p phase := by
    rw [hret]; rfl
  suffices h : ∃ v m, Frame.runLoad su w t p phase = (v, m) ∧ v.registry = w.registry ∧
    v.scene = w.scene ∧
      ∀ f ∈ (m.onto below).1, f.listens = false by
    obtain ⟨v, m, hrun, hreg, hscene, hlisten⟩ := h
    rw [hrun] at hact
    have hcore := World.core_runTask su ha hs
    rw [hact] at hcore
    exact ⟨((congrArg Core.registry hcore).trans (Core.settle_registry ..)).trans hreg,
      (World.scene_runTask ha hs hact hlisten).trans hscene⟩
  have hbelow : ∀ f ∈ below, f.listens = false := fun f hf => (hb f hf).listens
  have hload (phase' : LoadPhase) : ∀ f ∈ Frame.load p phase' :: below, f.listens = false := by
    intro f hf
    rcases List.mem_cons.1 hf with rfl | hf
    · rfl
    · exact hbelow f hf
  rcases hphase with rfl | ⟨k, rfl⟩ | ⟨k, rfl⟩
  · unfold Frame.runLoad
    dsimp only
    split_ifs
    · exact ⟨_, _, rfl, rfl, rfl, hload _⟩
    · exact ⟨_, _, rfl, rfl, rfl, hload _⟩
  · unfold Frame.runLoad
    dsimp only
    split_ifs
    · exact ⟨_, _, rfl, rfl, rfl, hload _⟩
    · exact ⟨_, _, rfl, rfl, rfl, hload _⟩
  · refine ⟨_, _, if_neg (by simp [hp]), ?_, ?_, hbelow⟩
    · exact congrArg Core.registry (World.core_leaveLock _ k)
    · exact World.scene_leaveLock _ k

end PageTest
