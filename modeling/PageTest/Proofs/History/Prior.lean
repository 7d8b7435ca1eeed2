import PageTest.Proofs.Machine.Run

/-! A world with a history. All that a session has behind it is in front of what the world holds: time, log and
trace go on from there, tasks that are over come before the others, and the lock has given out tickets. Whatever
is done to the world is done in the same way with and without the history. -/

namespace PageTest

/-- What a session has behind it. -/
structure Prior where
  time : Nat
  log : Log
  trace : List TraceEntry
  /-- How many tickets for the load lock were drawn. -/
  tickets : Nat
  gone : List Task
  /-- Nothing is left of a task that is over. -/
  still : ∀ x ∈ gone, x.stack = []
  /-- The table of tasks that can be waited for and the last report on a suite, if nobody is to refer to them. -/
  kept : Option (List (Option Nat) × SuiteReport)

namespace Prior

variable (h : Prior) {t u : Nat}

/-- The number of a task. The main task keeps its own; the others are counted after those that are over. -/
def task (t : Nat) : Nat := if t = 0 then 0 else t + h.gone.length

/-- The tasks, with those that are over after the main one. -/
def among : List Task → List Task
  | [] => []
  | x :: rest => x :: (h.gone ++ rest)

@[simp] theorem task_zero : h.task 0 = 0 := rfl

@[simp] theorem task_eq_zero : h.task t = 0 ↔ t = 0 := by
  unfold task
  split_ifs <;> omega

@[simp] theorem task_inj : h.task t = h.task u ↔ t = u := by
  unfold task
  split_ifs <;> omega

theorem task_succ (t : Nat) : h.task (t + 1) = t + h.gone.length + 1 := by
  simp [task]
  omega

theorem mem_map_task {ts : List Nat} : h.task t ∈ ts.map h.task ↔ t ∈ ts := by simp

theorem getElem?_among (ts : List Task) (t : Nat) : (h.among ts)[h.task t]? = ts[t]? := by
  cases ts with
  | nil => rfl
  | cons x rest =>
    cases t with
    | zero => rfl
    | succ t => simp [among, task_succ, List.getElem?_append_right]

theorem among_modify (ts : List Task) (t : Nat) (f : Task → Task) :
    h.among (ts.modify t f) = (h.among ts).modify (h.task t) f := by
  cases ts with
  | nil => simp [among]
  | cons x rest =>
    cases t with
    | zero => rfl
    | succ t =>
      refine List.ext_getElem? fun i => ?_
      rw [task_succ, List.getElem?_modify]
      cases i with
      | zero => simp [among]
      | succ i =>
        rcases Nat.lt_or_ge i h.gone.length with hi | hi
        · have hne : t + h.gone.length ≠ i := by omega
          simp [among, List.getElem?_append_left hi, hne]
        · have hiff : t = i - h.gone.length ↔ t + h.gone.length = i := by omega
          simp [among, List.getElem?_append_right hi, List.getElem?_modify, hiff]

theorem among_append {ts : List Task} (hts : 0 < ts.length) (x : Task) :
    h.among (ts ++ [x]) = h.among ts ++ [x] := by
  cases ts with
  | nil => simp at hts
  | cons y rest => simp [among]

theorem length_among {ts : List Task} (hts : 0 < ts.length) :
    (h.among ts).length = h.task ts.length := by
  cases ts with
  | nil => simp at hts
  | cons y rest => simp [among, task_succ, Nat.add_comm]

/-- Whom nobody finds among the tasks that are over is found at the same place. -/
theorem findIdx?_among (ts : List Task) {p : Task → Bool} (hp : ∀ x ∈ h.gone, p x = false) :
    (h.among ts).findIdx? p = (ts.findIdx? p).map h.task := by
  cases ts with
  | nil => rfl
  | cons x rest =>
    have hnone : h.gone.findIdx? p = none := List.findIdx?_eq_none_iff.2 hp
    simp only [among, List.findIdx?_cons, List.findIdx?_append, hnone]
    cases p x with
    | true => rfl
    | false =>
      cases rest.findIdx? p <;> simp [task_succ]

end Prior

/-! What a world looks like after a history -/

def TraceEntry.after (e : TraceEntry) (h : Prior) : TraceEntry := { e with time := e.time + h.time }

def Scene.after (s : Scene) (h : Prior) : Scene := { s with trace := h.trace ++ s.trace.map (·.after h) }

def LoadPhase.after (phase : LoadPhase) (h : Prior) : LoadPhase :=
  match phase with
  | .arriving => .arriving
  | .queueing k => .queueing (k + h.tickets)
  | .entered k => .entered (k + h.tickets)
  | .loading k => .loading (k + h.tickets)
  | .registering k => .registering (k + h.tickets)
  | .running k => .running (k + h.tickets)

def Frame.after (f : Frame) (h : Prior) : Frame :=
  match f with
  | .pause due => .pause (due + h.time)
  | .load path phase => .load path (phase.after h)
  | .join t => .join (h.task t)
  | f => f

def Lock.after (l : Lock) (h : Prior) : Lock where
  holder := l.holder.map (· + h.tickets)
  queue := l.queue.map fun q => (q.1 + h.tickets, h.task q.2)
  tickets := l.tickets + h.tickets

def Task.after (x : Task) (h : Prior) : Task :=
  { x with stack := x.stack.map (·.after h), waiter := x.waiter.map h.task }

def World.after (w : World) (h : Prior) : World where
  now := w.now + h.time
  log := ⟨h.log.drained, h.log.waiting ++ w.log.history⟩
  registry := w.registry
  scene := w.scene.after h
  lock := w.lock.after h
  tasks := h.among (w.tasks.map (·.after h))
  running := w.running.map h.task
  allowance := w.allowance
  ready := w.ready.map h.task
  mainReady := w.mainReady
  yielding := w.yielding.map h.task
  timers := w.timers.map fun q => (q.1 + h.time, h.task q.2)
  alarm := w.alarm.map (· + h.time)
  handles := (h.kept.map (·.1)).getD (w.handles.map (·.map h.task))
  suite := (h.kept.map (·.2)).getD w.suite

@[simp] theorem Scene.page_after (s : Scene) (h : Prior) : (s.after h).page = s.page := rfl

namespace World

variable {w : World} {h : Prior} {t i : Nat}

/-! What others find -/

@[simp] theorem now_after (w : World) (h : Prior) : (w.after h).now = w.now + h.time := rfl

@[simp] theorem allowance_after (w : World) (h : Prior) : (w.after h).allowance = w.allowance := rfl

@[simp] theorem registry_after (w : World) (h : Prior) : (w.after h).registry = w.registry := rfl

@[simp] theorem scene_after (w : World) (h : Prior) : (w.after h).scene = w.scene.after h := rfl

theorem task?_after (w : World) (h : Prior) (t : Nat) :
    (w.after h).task? (h.task t) = (w.task? t).map (·.after h) := by
  simp [task?, after, Prior.getElem?_among]

@[simp] theorem ended?_after (w : World) (h : Prior) (t : Nat) :
    (w.after h).ended? (h.task t) = w.ended? t := by
  rw [ended?, ended?, task?_after]
  cases w.task? t <;> rfl

theorem holder_after (l : Lock) (h : Prior) (k : Nat) :
    (l.after h).holder = some (k + h.tickets) ↔ l.holder = some k := by
  simp [Lock.after]

/-! What others change -/

theorem enter_after (w : World) (h : Prior) (e : LogEntry) : (w.after h).enter e = (w.enter e).after h := by
  simp [enter, after, Log.append, Log.history]

theorem append_after (w : World) (h : Prior) (kind : LogKind) (msg : String) :
    (w.after h).append kind msg = (w.append kind msg).after h := enter_after w h ⟨kind, msg⟩

theorem note_after (w : World) (h : Prior) (who : Origin) (what : Remark) :
    (w.after h).note who what = (w.note who what).after h := by
  unfold note Scene.note
  by_cases hw : who = .hidden <;> simp [hw, after, Scene.after, TraceEntry.after]

theorem wake_after (w : World) (h : Prior) (t : Nat) : (w.after h).wake (h.task t) = (w.wake t).after h := by
  have hm : h.task t ∈ (w.after h).ready ↔ t ∈ w.ready := h.mem_map_task
  unfold wake
  simp only [h.task_eq_zero, hm]
  split_ifs
  · rfl
  · rfl
  · simp [after]

theorem wake?_after (w : World) (h : Prior) (o : Option Nat) :
    (w.after h).wake? (o.map h.task) = (w.wake? o).after h := by
  cases o with
  | none => rfl
  | some t => exact wake_after w h t

theorem wakeAll_after (h : Prior) (ts : List Nat) (w : World) :
    (w.after h).wakeAll (ts.map h.task) = (w.wakeAll ts).after h := by
  induction ts generalizing w with
  | nil => rfl
  | cons t ts ih =>
    simp only [wakeAll, List.map_cons, List.foldl_cons, wake_after]
    exact ih (w.wake t)

theorem modifyTask_after (w : World) (h : Prior) (t : Nat) {f g : Task → Task}
    (hf : ∀ x, f (x.after h) = (g x).after h) :
    (w.after h).modifyTask (h.task t) f = (w.modifyTask t g).after h := by
  have hm : (w.tasks.map (·.after h)).modify t f = (w.tasks.modify t g).map (·.after h) := by
    refine List.ext_getElem? fun i => ?_
    simp only [List.getElem?_modify, List.getElem?_map]
    by_cases hi : t = i
    · cases w.tasks[i]? <;> simp [hi, hf]
    · simp [hi]
  simp only [modifyTask, after, ← hm, Prior.among_modify]

theorem start_after (h : Prior) (hw : 0 < w.tasks.length) (stack : List Frame) :
    (w.after h).start (stack.map (·.after h)) = (h.task (w.start stack).1, (w.start stack).2.after h) := by
  have hlen : (w.after h).tasks.length = h.task w.tasks.length := by
    have hpos : 0 < (w.tasks.map (·.after h)).length := by simpa using hw
    simpa [after] using h.length_among hpos
  have htasks : (w.after h).tasks ++ [Task.start (stack.map (·.after h))] =
      h.among ((w.tasks ++ [Task.start stack]).map (·.after h)) := by
    rw [List.map_append, List.map_singleton, h.among_append (by simpa using hw)]
    rfl
  simp only [start, hlen, htasks]
  simp [after]

theorem setTimer_after (w : World) (h : Prior) (t due : Nat) :
    (w.after h).setTimer (h.task t) (due + h.time) = (w.setTimer t due).after h := by
  simp [setTimer, after, List.filter_map, Function.comp_def]

theorem clearTimer_after (w : World) (h : Prior) (t : Nat) :
    (w.after h).clearTimer (h.task t) = (w.clearTimer t).after h := by
  simp [clearTimer, after, List.filter_map, Function.comp_def]

theorem waitFor_after (w : World) (h : Prior) (t i : Nat) :
    (w.after h).waitFor (h.task t) (h.task i) = (w.waitFor t i).after h :=
  modifyTask_after w h i fun _ => rfl

theorem cancel_after (w : World) (h : Prior) (t : Nat) :
    (w.after h).cancel (h.task t) = (w.cancel t).after h := by
  unfold cancel
  rw [task?_after]
  cases w.task? t with
  | none => rfl
  | some x =>
    simp only [Option.map_some, show (x.after h).ended = x.ended from rfl]
    have hd := modifyTask_after w h t (f := fun x => { x with cancelled := true })
      (g := fun x => { x with cancelled := true }) fun _ => rfl
    split_ifs
    · rfl
    · rw [hd, wake_after]

theorem takeHandle_after (w : World) {h : Prior} (hk : h.kept = none) (i : Nat) :
    (w.after h).takeHandle i = ((w.takeHandle i).1.map h.task, (w.takeHandle i).2.after h) := by
  have hi : (w.after h).handles[i]? = (w.handles[i]?).map (·.map h.task) := by simp [after, hk]
  unfold takeHandle
  rw [hi]
  rcases w.handles[i]? with _ | _ | t
  · rfl
  · rfl
  · simp [after, hk, List.map_set]

/-! The page -/

theorem awaits_after (l : Nat) (x : Task) (h : Prior) : awaits l (x.after h) = awaits l x := by
  unfold awaits Task.after
  cases x.stack with
  | nil => rfl
  | cons f rest =>
    cases f with
    | waitLoad loaded l' => cases l' <;> rfl
    | _ => rfl

theorem length_tell (w : World) (note : Notice) : w.tasks.length ≤ (w.tell note).tasks.length := by
  obtain ⟨sts, -, hc⟩ := core_tell w note
  have := congrArg (fun k => k.tasks.length) hc
  simp only [length_core, Core.spawn, List.length_append] at this
  omega

theorem tell_after (h : Prior) (hw : 0 < w.tasks.length) (note : Notice) :
    (w.after h).tell note = (w.tell note).after h := by
  cases note with
  | navigated => exact congrArg Prod.snd (start_after h hw navigation)
  | fired l =>
    have hgone : ∀ x ∈ h.gone, awaits l x = false := fun x hx => by simp [awaits, h.still x hx]
    have hfind : (w.after h).tasks.findIdx? (awaits l) = (w.tasks.findIdx? (awaits l)).map h.task := by
      simp only [after, h.findIdx?_among _ hgone, List.findIdx?_map, Function.comp_def, awaits_after]
    simp only [tell, hfind, wake?_after]

theorem withScene_after (h : Prior) (hw : 0 < w.tasks.length) (s : Scene) :
    (w.after h).withScene (s.after h) = (w.withScene s).after h := by
  suffices hns : ∀ (ns : List Notice) (v : World), 0 < v.tasks.length →
      ns.foldl tell (v.after h) = (ns.foldl tell v).after h from
    hns s.notices { w with scene := { s with notices := [] } } hw
  intro ns
  induction ns with
  | nil => exact fun v _ => rfl
  | cons note ns ih =>
    intro v hv
    have hpos : 0 < (v.tell note).tasks.length := by
      have := length_tell v note
      omega
    rw [List.foldl_cons, List.foldl_cons, tell_after h hv, ih _ hpos]

/-! Giving up -/

theorem release_after (l : Lock) (h : Prior) :
    (l.after h).release = (l.release.1.map h.task, l.release.2.after h) := by
  unfold Lock.release
  cases hq : l.queue with
  | nil => simp [Lock.after, hq]
  | cons q rest => simp [Lock.after, hq]

theorem leave_after (l : Lock) (h : Prior) (k : Nat) :
    (l.after h).leave (k + h.tickets) = ((l.leave k).1.map h.task, (l.leave k).2.after h) := by
  unfold Lock.leave
  simp only [holder_after]
  split_ifs
  · exact release_after l h
  · simp [Lock.after, List.filter_map, Function.comp_def]

theorem leaveLock_after (w : World) (h : Prior) (k : Nat) :
    (w.after h).leaveLock (k + h.tickets) = (w.leaveLock k).after h := by
  have hl : (w.after h).lock.leave (k + h.tickets) = ((w.lock.leave k).1.map h.task, (w.lock.leave k).2.after h) :=
    leave_after w.lock h k
  simp only [leaveLock, hl]
  exact wake?_after { w with lock := (w.lock.leave k).2 } h _

theorem ticketOf_after (phase : LoadPhase) (h : Prior) :
    ticketOf (phase.after h) = (ticketOf phase).map (· + h.tickets) := by
  cases phase <;> rfl

theorem dropFrame_after (w : World) (h : Prior) (f : Frame) :
    (w.after h).dropFrame (f.after h) = (w.dropFrame f).after h := by
  cases f with
  | load path phase =>
    simp only [Frame.after, dropFrame, ticketOf_after]
    cases ticketOf phase with
    | none => rfl
    | some k => exact leaveLock_after w h k
  | waitLoad loaded l => cases l <;> rfl
  | _ => rfl

theorem dropFrames_after (h : Prior) (stack : List Frame) (w : World) :
    (stack.map (·.after h)).foldl dropFrame (w.after h) = (stack.foldl dropFrame w).after h := by
  induction stack generalizing w with
  | nil => rfl
  | cons f rest ih => rw [List.map_cons, List.foldl_cons, List.foldl_cons, dropFrame_after, ih]

theorem endTask_after (w : World) (h : Prior) (t : Nat) (how : TaskReport) :
    (w.after h).endTask (h.task t) how = (w.endTask t how).after h := by
  have hw : ((w.after h).task? (h.task t)).bind (·.waiter) = ((w.task? t).bind (·.waiter)).map h.task := by
    rw [task?_after]
    cases w.task? t <;> rfl
  have hd := modifyTask_after w h t (f := fun x => { x with stack := [], returned := none, ended := some how })
    (g := fun x => { x with stack := [], returned := none, ended := some how }) fun _ => rfl
  simp only [endTask, hw]
  rw [hd, wake?_after]

theorem cancelNow_after (w : World) (h : Prior) (t : Nat) :
    (w.after h).cancelNow (h.task t) = (w.cancelNow t).after h := by
  have hs : (((w.after h).task? (h.task t)).map (·.stack)).getD [] =
      (((w.task? t).map (·.stack)).getD []).map (·.after h) := by
    rw [task?_after]
    cases w.task? t <;> rfl
  have hd (v : World) := modifyTask_after v h t (f := fun x => { x with stack := [], returned := none })
    (g := fun x => { x with stack := [], returned := none }) fun _ => rfl
  simp only [cancelNow, dropStack, hs, clearTimer_after, dropFrames_after]
  rw [hd, endTask_after]

end World

end PageTest
