import PageTest.Proofs.Machine.Moves

/-! One move of the task that runs, seen from its own stack and from everywhere else. -/

namespace PageTest

/-- A task after its frame on top has moved. It ends there and then if it was asked to and waits. -/
def Activity.moved (a : Activity) (rest : List Frame) : Move → Activity
  | .halt f => if a.cancelled then a.finish .cancelled else a.put (f :: rest) none
  | m => a.put (m.onto rest).1 (m.onto rest).2

def Move.waits : Move → Bool
  | halt _ => true
  | _ => false

theorem Activity.moved_cancelled {a : Activity} {rest : List Frame} {m : Move}
    (h : m.waits = true ∧ a.cancelled = true) : a.moved rest m = a.finish .cancelled := by
  cases m with
  | halt f => simp [moved, h.2]
  | _ => simp [Move.waits] at h

theorem Activity.moved_onto {a : Activity} {rest : List Frame} {m : Move}
    (h : ¬ (m.waits = true ∧ a.cancelled = true)) :
    a.moved rest m = a.put (m.onto rest).1 (m.onto rest).2 := by
  cases m with
  | halt f =>
    have hc : a.cancelled ≠ true := fun hc => h ⟨rfl, hc⟩
    simp [moved, hc, Move.onto]
  | _ => rfl

namespace Core

variable {k : Core} {t : Nat} {rest : List Frame} {m : Move}

@[simp] theorem put_tasks_other {i : Nat} (st : List Frame) (ret : Option Outcome) (h : i ≠ t) :
    (k.put t st ret).tasks[i]? = k.tasks[i]? := by
  simp [put, h.symm]

theorem put_tasks_self {a : Activity} (st : List Frame) (ret : Option Outcome)
    (h : k.tasks[t]? = some a) : (k.put t st ret).tasks[t]? = some (a.put st ret) := by
  simp [put, h]

theorem cancelledAt_put {a : Activity} (h : k.tasks[t]? = some a) (st : List Frame) (ret : Option Outcome) :
    ({ k.put t st ret with running := none } : Core).cancelledAt t = a.cancelled := by
  simp [cancelledAt, put_tasks_self st ret h, Activity.put]

theorem settle_other {i : Nat} (h : i ≠ t) : (k.settle t rest m).tasks[i]? = k.tasks[i]? := by
  cases m with
  | halt f =>
    simp only [settle]
    split_ifs
    · simp [cancelNow, h, h.symm]
    · exact put_tasks_other _ _ h
  | _ => exact put_tasks_other _ _ h

theorem settle_self {a : Activity} (h : k.tasks[t]? = some a) :
    (k.settle t rest m).tasks[t]? = some (a.moved rest m) := by
  cases m with
  | halt f =>
    have hp := put_tasks_self (f :: rest) none h
    simp only [settle, cancelledAt_put h, Activity.moved]
    split_ifs
    · simp [cancelNow, hp, Activity.finish, Activity.put]
    · exact hp
  | _ => exact put_tasks_self _ _ h

/-- Nobody who has not been asked to end is given up. -/
theorem settle_tasks {a : Activity} (h : k.tasks[t]? = some a) (hc : a.cancelled = false) :
    (k.settle t rest m).tasks = k.tasks.modify t (·.put (m.onto rest).1 (m.onto rest).2) := by
  cases m with
  | halt f =>
    simp only [settle, cancelledAt_put h, hc]
    rfl
  | _ => rfl

@[simp] theorem length_settle : (k.settle t rest m).tasks.length = k.tasks.length := by
  cases m with
  | halt f => simp only [settle]; split_ifs <;> simp [cancelNow, put]
  | _ => simp [settle, put]

@[simp] theorem settle_now : (k.settle t rest m).now = k.now := by
  cases m with
  | halt f => simp only [settle]; split_ifs <;> rfl
  | _ => rfl

@[simp] theorem settle_log : (k.settle t rest m).log = k.log := by
  cases m with
  | halt f => simp only [settle]; split_ifs <;> rfl
  | _ => rfl

@[simp] theorem settle_registry : (k.settle t rest m).registry = k.registry := by
  cases m with
  | halt f => simp only [settle]; split_ifs <;> rfl
  | _ => rfl

@[simp] theorem settle_handles : (k.settle t rest m).handles = k.handles := by
  cases m with
  | halt f => simp only [settle]; split_ifs <;> rfl
  | _ => rfl

theorem settle_running : (k.settle t rest m).running = if m.waits then none else k.running := by
  cases m with
  | halt f => simp only [settle]; split_ifs <;> first | rfl | simp_all [Move.waits]
  | _ => rfl

/-- The lock is given up only with the whole task. -/
theorem settle_lock {a : Activity} (h : k.tasks[t]? = some a) :
    (k.settle t rest m).lock =
      if m.waits ∧ a.cancelled then dropLocks k.lock (m.onto rest).1 else k.lock := by
  cases m with
  | halt f =>
    have hp := put_tasks_self (f :: rest) none h
    simp only [settle, cancelledAt_put h, Move.waits, true_and]
    split_ifs
    · have hl : (k.put t (f :: rest) none).lock = k.lock := rfl
      simp [cancelNow, hp, Activity.put, Move.onto, hl]
    · rfl
  | _ => simp [Move.waits, settle, put]

end Core

namespace World

variable {su : Setup} {w : World} {t : Nat} {a : Activity}

/-- One move of a task that is in the middle of something. -/
theorem core_runTask (su : Setup) {f : Frame} {rest : List Frame} (ha : w.core.tasks[t]? = some a)
    (hs : a.stack = f :: rest) :
    (w.runTask su t).core = (f.act su w t a.returned).1.core.settle t rest (f.act su w t a.returned).2 := by
  rw [getElem?_core] at ha
  obtain ⟨task, ht, rfl⟩ := Option.map_eq_some_iff.1 ha
  have hs' : task.stack = f :: rest := hs
  unfold runTask
  cases hr : task.returned with
  | none => simp only [ht, hs', hr, core_apply]; simp [Frame.act, Task.activity, hr]
  | some o => simp only [ht, hs', hr, core_apply]; simp [Frame.act, Task.activity, hr]

/-- A task that has nothing left to do ends; task 0 waits for the next step of the session. -/
theorem core_runTask_nil (su : Setup) (ha : w.core.tasks[t]? = some a) (hs : a.stack = []) :
    (w.runTask su t).core = { w.core with
      running := none
      tasks := if t = 0 then w.core.tasks else
        w.core.tasks.modify t (·.finish (reportOf (a.returned.getD (.value .done)))) } := by
  rw [getElem?_core] at ha
  obtain ⟨task, ht, rfl⟩ := Option.map_eq_some_iff.1 ha
  have hs' : task.stack = [] := hs
  unfold runTask
  simp only [ht, hs']
  split_ifs
  · rfl
  · rw [core_endTask]; rfl

theorem core_runTask_none (su : Setup) (ha : w.core.tasks[t]? = none) :
    (w.runTask su t).core = { w.core with running := none } := by
  rw [getElem?_core] at ha
  have ht : w.task? t = none := by simpa using ha
  unfold runTask
  simp only [ht]
  rfl

end World

end PageTest
