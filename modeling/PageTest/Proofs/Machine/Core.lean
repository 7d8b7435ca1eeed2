import PageTest.Machine.Schedule
import Mathlib.Tactic

/-! What the theory looks at in a world: the time, the log, the registry, the lock, and of each task
what it is in the middle of. Timers, the ready queues and who waits for whom are left out, so all
that only plans ahead leaves the core as it is. -/

namespace PageTest

/-- A task without the memory of who waits for it. -/
structure Activity where
  stack : List Frame
  returned : Option Outcome
  ended : Option TaskReport
  cancelled : Bool

namespace Activity

def fresh (stack : List Frame) : Activity := ⟨stack, none, none, false⟩

/-- The activity with another stack; what the task came to and whether it is to end stay. -/
def put (a : Activity) (stack : List Frame) (returned : Option Outcome) : Activity :=
    { a with stack, returned }

def finish (a : Activity) (how : TaskReport) : Activity :=
    { a with stack := [], returned := none, ended := some how }

end Activity

def Task.activity (t : Task) : Activity := ⟨t.stack, t.returned, t.ended, t.cancelled⟩

structure Core where
  now : Nat
  log : Log
  registry : Registry Test
  lock : Lock
  running : Option Nat
  tasks : List Activity
  handles : List (Option Nat)

def World.core (w : World) : Core :=
  ⟨w.now, w.log, w.registry, w.lock, w.running, w.tasks.map Task.activity, w.handles⟩

namespace Core

def put (k : Core) (t : Nat) (stack : List Frame) (returned : Option Outcome) : Core :=
  { k with tasks := k.tasks.modify t (·.put stack returned) }

def spawn (k : Core) (sts : List (List Frame)) : Core :=
    { k with tasks := k.tasks ++ sts.map .fresh }

/-- The lock after a stack of frames was given up, the innermost first. -/
def dropLocks (l : Lock) (stack : List Frame) : Lock :=
  stack.foldl (fun l f => match f with
    | .load _ phase => match World.ticketOf phase with
      | some ticket => (l.leave ticket).2
      | none => l
    | _ => l) l

/-- A task is given up with all that it is in the middle of. -/
def cancelNow (k : Core) (t : Nat) : Core :=
  { k with
    lock := dropLocks k.lock ((k.tasks[t]?.map (·.stack)).getD [])
    tasks := k.tasks.modify t (·.finish .cancelled) }

def cancelledAt (k : Core) (t : Nat) : Bool := (k.tasks[t]?.map (·.cancelled)).getD false

/-- A task's stack after its frame on top has moved. -/
def settle (k : Core) (t : Nat) (rest : List Frame) : Move → Core
  | .goOn f => k.put t (f :: rest) none
  | .call f callee => k.put t (callee :: f :: rest) none
  | .leave o => k.put t rest (some o)
  | .halt f =>
    let k := { k.put t (f :: rest) none with running := none }
    if k.cancelledAt t then k.cancelNow t else k

end Core

namespace World

theorem getElem?_core (w : World) (t : Nat) : w.core.tasks[t]? = (w.task? t).map Task.activity := by
  simp [core, task?]

@[simp] theorem length_core (w : World) : w.core.tasks.length = w.tasks.length := by simp [core]

/-! What only plans ahead. -/

@[simp] theorem core_wake (w : World) (t : Nat) : (w.wake t).core = w.core := by
  unfold wake; split_ifs <;> rfl

@[simp] theorem core_wakeAll (w : World) (ts : List Nat) : (w.wakeAll ts).core = w.core := by
  induction ts generalizing w with
  | nil => rfl
  | cons t ts ih => exact (ih (w.wake t)).trans (core_wake w t)

@[simp] theorem core_wake? (w : World) (t : Option Nat) : (w.wake? t).core = w.core := by
  cases t with
  | none => rfl
  | some t => exact core_wake w t

@[simp] theorem core_wakeYielding (w : World) : w.wakeYielding.core = w.core := by
  unfold wakeYielding; rw [core_wakeAll]; rfl

@[simp] theorem core_setTimer (w : World) (t due : Nat) : (w.setTimer t due).core = w.core := rfl

@[simp] theorem core_clearTimer (w : World) (t : Nat) : (w.clearTimer t).core = w.core := rfl

@[simp] theorem core_note (w : World) (who : Origin) (what : Remark) :
    (w.note who what).core = w.core := rfl

@[simp] theorem core_waitFor (w : World) (t other : Nat) : (w.waitFor t other).core = w.core := by
  simp only [waitFor, modifyTask, core, Core.mk.injEq, true_and, and_true]
  exact List.ext_getElem? fun i => by
    rw [List.getElem?_map, List.getElem?_map, List.getElem?_modify]
    split_ifs <;> cases w.tasks[i]? <;> rfl

/-! Tasks -/

theorem task?_modifyTask_other (w : World) (f : Task → Task) {t i : Nat} (h : i ≠ t) :
    (w.modifyTask t f).task? i = w.task? i := by
  simp [modifyTask, task?, h.symm]

theorem task?_modifyTask_self (w : World) (f : Task → Task) (t : Nat) :
    (w.modifyTask t f).task? t = (w.task? t).map f := by
  simp [modifyTask, task?]

theorem map_modify_activity (ts : List Task) (t : Nat) (f : Task → Task) (g : Activity → Activity)
    (h : ∀ a, (f a).activity = g a.activity) :
    (ts.modify t f).map Task.activity = (ts.map Task.activity).modify t g :=
  List.ext_getElem? fun i => by
    simp only [List.getElem?_map, List.getElem?_modify]
    by_cases hi : t = i <;> cases ts[i]? <;> simp [hi, h]

theorem core_modifyTask (w : World) (t : Nat) (f : Task → Task) (g : Activity → Activity)
    (h : ∀ a, (f a).activity = g a.activity) :
    (w.modifyTask t f).core = { w.core with tasks := w.core.tasks.modify t g } := by
  simp [modifyTask, core, map_modify_activity _ t f g h]

theorem core_start (w : World) (stack : List Frame) :
    (w.start stack).2.core = w.core.spawn [stack] := by
  simp [start, core, Core.spawn, Task.start, Task.activity, Activity.fresh]

theorem core_spawn (w : World) (body : List Step) (after : Nat) : (w.spawn body after).1.core =
    { w.core.spawn [if after = 0 then [.steps (.task w.handles.length) [] none body]
        else [.sleep after, .steps (.task w.handles.length) [] none body]] with
      handles := w.handles ++ [some w.tasks.length] } :=
  congrArg (fun k : Core => { k with handles := w.handles ++ [some w.tasks.length] }) (core_start w _)

theorem core_tell (w : World) (n : Notice) :
    ∃ sts, (∀ s ∈ sts, s = navigation) ∧ (w.tell n).core = w.core.spawn sts := by
  cases n with
  | fired l => exact ⟨[], by simp, by simp [tell, Core.spawn]⟩
  | navigated => exact ⟨[navigation], by simp, core_start w navigation⟩

/-- A step on the page starts no task but those of frames that navigate. -/
theorem core_withScene (w : World) (s : Scene) :
    ∃ sts, (∀ st ∈ sts, st = navigation) ∧ (w.withScene s).core = w.core.spawn sts := by
  refine List.foldlRecOn s.notices tell
    (motive := fun v => ∃ sts, (∀ st ∈ sts, st = navigation) ∧ v.core = w.core.spawn sts) ?_ ?_
  · exact ⟨[], by simp, by simp [Core.spawn, core]⟩
  · rintro v ⟨sts, hs, hc⟩ n -
    obtain ⟨more, hm, hd⟩ := core_tell v n
    refine ⟨sts ++ more, fun st hst => (List.mem_append.1 hst).elim (hs st) (hm st), ?_⟩
    simp only [hd, hc, Core.spawn, List.append_assoc, List.map_append]

theorem core_endTask (w : World) (t : Nat) (how : TaskReport) :
    (w.endTask t how).core = { w.core with tasks := w.core.tasks.modify t (·.finish how) } := by
  simp only [endTask, core_wake?]
  exact core_modifyTask _ _ _ _ fun a => rfl

theorem modify_congr {α : Type} {ts : List α} {t : Nat} {f g : α → α}
    (h : ∀ a, ts[t]? = some a → f a = g a) : ts.modify t f = ts.modify t g :=
  List.ext_getElem? fun i => by
    simp only [List.getElem?_modify]
    by_cases hi : t = i
    · subst hi
      cases ha : ts[t]? with
      | none => rfl
      | some a => simp [h a ha]
    · simp [hi]

theorem core_cancel (w : World) (t : Nat) :
    (w.cancel t).core = { w.core with tasks := w.core.tasks.modify t fun a =>
      if a.ended.isSome then a else { a with cancelled := true } } := by
  unfold cancel
  cases h : w.task? t with
  | none =>
    have hk : w.core.tasks.modify t (fun a => if a.ended.isSome then a else { a with cancelled := true }) =
        w.core.tasks.modify t id := modify_congr fun a ha => by simp [getElem?_core, h] at ha
    rw [hk, List.modify_id]
  | some a =>
    dsimp only
    split_ifs with he
    · have hk : w.core.tasks.modify t (fun a => if a.ended.isSome then a else { a with cancelled := true }) =
          w.core.tasks.modify t id := by
        refine modify_congr fun b hb => ?_
        obtain rfl : a.activity = b := by simpa [getElem?_core, h] using hb
        simp [Task.activity, he]
      rw [hk, List.modify_id]
    · have hk : w.core.tasks.modify t (fun a => if a.ended.isSome then a else { a with cancelled := true }) =
          w.core.tasks.modify t fun a => { a with cancelled := true } := by
        refine modify_congr fun b hb => ?_
        obtain rfl : a.activity = b := by simpa [getElem?_core, h] using hb
        simp [Task.activity, he]
      rw [core_wake, core_modifyTask w t _ (fun a => { a with cancelled := true }) fun a => rfl, hk]

/-! Giving up -/

theorem core_leaveLock (w : World) (ticket : Nat) :
    (w.leaveLock ticket).core = { w.core with lock := (w.core.lock.leave ticket).2 } := by
  simp only [leaveLock, core_wake?]
  rfl

theorem core_dropFrame (w : World) (f : Frame) :
    (w.dropFrame f).core = { w.core with lock := Core.dropLocks w.core.lock [f] } := by
  cases f with
  | load path phase =>
    cases h : ticketOf phase with
    | none => simp [dropFrame, Core.dropLocks, h]
    | some ticket => simp [dropFrame, Core.dropLocks, h, core_leaveLock]
  | waitLoad loaded l => cases l <;> rfl
  | _ => rfl

theorem core_dropFrames (w : World) (stack : List Frame) :
    (stack.foldl dropFrame w).core = { w.core with lock := Core.dropLocks w.core.lock stack } := by
  induction stack generalizing w with
  | nil => rfl
  | cons f rest ih => rw [List.foldl_cons, ih, core_dropFrame]; rfl

theorem core_cancelNow (w : World) (t : Nat) : (w.cancelNow t).core = w.core.cancelNow t := by
  have hs : ((w.task? t).map (·.stack)).getD [] = (w.core.tasks[t]?.map (·.stack)).getD [] := by
    rw [getElem?_core]; cases w.task? t <;> rfl
  unfold cancelNow dropStack
  rw [core_endTask, core_modifyTask _ t _ (·.put [] none) fun a => rfl, core_dropFrames,
    core_clearTimer, hs]
  simp only [Core.cancelNow, Core.mk.injEq, true_and, and_true]
  exact List.ext_getElem? fun i => by
    simp only [List.getElem?_modify]
    by_cases hi : t = i <;> cases w.core.tasks[i]? <;> simp [hi, Activity.put, Activity.finish]

theorem core_put (w : World) (t : Nat) (stack : List Frame) (returned : Option Outcome) :
    (w.modifyTask t fun task => { task with stack, returned }).core = w.core.put t stack returned :=
  core_modifyTask _ _ _ _ fun _ => rfl

theorem core_apply (w : World) (t : Nat) (rest : List Frame) (m : Move) :
    (w.apply t rest m).core = w.core.settle t rest m := by
  cases m with
  | goOn f => exact core_put w t _ _
  | call f callee => exact core_put w t _ _
  | leave o => exact core_put w t _ _
  | halt f =>
    simp only [apply, Core.settle]
    set v : World := { w.modifyTask t fun task => { task with stack := f :: rest, returned := none } with running := none }
    have hv : v.core = { w.core.put t (f :: rest) none with running := none } := by
      rw [← core_put]; rfl
    have hc : ((v.task? t).map (·.cancelled)).getD false = v.core.cancelledAt t := by
      rw [Core.cancelledAt, getElem?_core]; cases v.task? t <;> rfl
    rw [hc, ← hv]
    split_ifs with h
    · exact core_cancelNow v t
    · rfl

end World

end PageTest
