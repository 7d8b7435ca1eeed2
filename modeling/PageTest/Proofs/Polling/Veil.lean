import PageTest.Proofs.Polling.Meek
import PageTest.Proofs.Runs.Rules

/-! The world as it is without a driver at its rounds. What the others do is the same whether they
are watched or not, if they do not look into the log. -/

namespace PageTest

/-- It does not matter that the main task waits for a task. -/
def Task.veil (x : Task) : Task := { x with waiter := x.waiter.filter (· ≠ 0) }

namespace World

/-- The world without what the main task is in the middle of: nothing was drained, and nobody wakes
it. The clock and the allowance are given, since the main task takes its part in both. -/
def veil (w : World) (n a : Nat) : World := { w with
  now := n
  log := ⟨[], w.log.history⟩
  tasks := (w.tasks.map Task.veil).set 0 (.start [])
  running := w.running.filter (· ≠ 0)
  allowance := a
  mainReady := false
  timers := w.timers.filter (·.2 ≠ 0)
  alarm := none }

/-- The same at its own time. -/
def hood (w : World) : World := w.veil w.now w.allowance

/-- The others have no way to the main task. -/
structure Hidden (w : World) : Prop where
  main : ∃ x, w.task? 0 = some x ∧ ∀ l, awaits l x = false
  queue : ∀ q ∈ w.lock.queue, q.2 ≠ 0
  handles : some 0 ∉ w.handles

/-- A change of the world that is the same with the main task and without. -/
structure Unseen (w : World) (f : World → World) : Prop where
  veil : ∀ n a, f (w.veil n a) = (f w).veil n a
  now : (f w).now = w.now
  allowance : (f w).allowance = w.allowance
  hidden : (f w).Hidden

theorem Unseen.comp {w : World} {f g : World → World} (hf : Unseen w f) (hg : Unseen (f w) g) :
    Unseen w (fun v => g (f v)) :=
  ⟨fun n a => by rw [hf.veil, hg.veil], hg.now.trans hf.now, hg.allowance.trans hf.allowance, hg.hidden⟩

theorem Unseen.hood {w : World} {f : World → World} (h : Unseen w f) : f w.hood = (f w).hood := by
  rw [World.hood, World.hood, h.veil, h.now, h.allowance]

variable {w : World} {t i due n a : Nat}

theorem Hidden.pos (h : w.Hidden) : 0 < w.tasks.length := by
  obtain ⟨x, hx, -⟩ := h.main
  exact (List.getElem?_eq_some_iff.1 hx).1

/-! What others find -/

theorem length_veil (w : World) : (w.veil n a).tasks.length = w.tasks.length := by simp [veil]

theorem task?_veil (w : World) (h : i ≠ 0) : (w.veil n a).task? i = (w.task? i).map Task.veil := by
  simp [task?, veil, List.getElem?_set_ne h.symm]

theorem ended?_veil (w : World) (h : i ≠ 0) : (w.veil n a).ended? i = w.ended? i := by
  rw [ended?, ended?, task?_veil w h]
  cases w.task? i <;> rfl

theorem takeHandle_veil (w : World) (i : Nat) :
    (w.veil n a).takeHandle i = ((w.takeHandle i).1, (w.takeHandle i).2.veil n a) := by
  unfold takeHandle
  rw [show (w.veil n a).handles = w.handles from rfl]
  split <;> rfl

/-! What others change -/

theorem Unseen.still (h : w.Hidden) : Unseen w id := ⟨fun _ _ => rfl, rfl, rfl, h⟩

theorem unseen_same {f : World → World} (h : w.Hidden) (hv : ∀ n a, f (w.veil n a) = (f w).veil n a)
    (hn : (f w).now = w.now) (ha : (f w).allowance = w.allowance) (ht : (f w).tasks = w.tasks)
    (hl : (f w).lock = w.lock) (hh : (f w).handles = w.handles) : Unseen w f :=
  ⟨hv, hn, ha, by simpa [task?, ht] using h.main, by simpa [hl] using h.queue, by simpa [hh] using h.handles⟩

theorem unseen_enter (h : w.Hidden) (e : LogEntry) : Unseen w (·.enter e) :=
  unseen_same h (by simp [enter, veil, Log.append, Log.history]) rfl rfl rfl rfl rfl

theorem unseen_append (h : w.Hidden) (kind : LogKind) (msg : String) : Unseen w (·.append kind msg) :=
  unseen_enter h ⟨kind, msg⟩

theorem unseen_wake (h : w.Hidden) (ht : t ≠ 0) : Unseen w (·.wake t) := by
  have hw (v : World) : v.wake t = if t ∈ v.ready then v else { v with ready := v.ready ++ [t] } := by
    simp [wake, ht]
  by_cases hm : t ∈ w.ready
  · have hv (n a : Nat) : t ∈ (w.veil n a).ready := hm
    refine unseen_same h ?_ ?_ ?_ ?_ ?_ ?_ <;> simp [hw, hm, hv]
  · have hv (n a : Nat) : t ∉ (w.veil n a).ready := hm
    refine unseen_same h ?_ ?_ ?_ ?_ ?_ ?_ <;> simp [hw, hm, hv]
    intros
    rfl

theorem unseen_wake? (h : w.Hidden) {o : Option Nat} (ho : o ≠ some 0) : Unseen w (·.wake? o) := by
  cases o with
  | none => exact .still h
  | some t => exact unseen_wake h (by simpa using ho)

theorem unseen_wakeAll (ts : List Nat) (h : w.Hidden) (hts : 0 ∉ ts) : Unseen w (·.wakeAll ts) := by
  induction ts generalizing w with
  | nil => exact .still h
  | cons t ts ih =>
    have ht : t ≠ 0 := fun he => hts (by simp [he])
    exact (unseen_wake h ht).comp (ih (unseen_wake h ht).hidden fun hm => hts (by simp [hm]))

theorem unseen_standBack (h : w.Hidden) : Unseen w (·.standBack t) :=
  unseen_same h (fun _ _ => rfl) rfl rfl rfl rfl rfl

theorem unseen_start (h : w.Hidden) (stack : List Frame) : Unseen w (fun v => (v.start stack).2) := by
  have hpos := h.pos
  obtain ⟨x, hx, hi⟩ := h.main
  refine ⟨fun n a => ?_, rfl, rfl, ⟨x, ?_, hi⟩, h.queue, h.handles⟩
  · simp only [start, veil, List.length_set, List.length_map, List.map_append, List.map_cons, List.map_nil]
    rw [List.set_append_left _ _ (by simpa using hpos)]
    rfl
  · rw [← hx]
    exact List.getElem?_append_left hpos

theorem unseen_clearTimer (h : w.Hidden) : Unseen w (·.clearTimer t) := by
  refine unseen_same h ?_ rfl rfl rfl rfl rfl
  simp [clearTimer, veil, List.filter_filter, Bool.and_comm]

theorem unseen_setTimer (h : w.Hidden) (ht : t ≠ 0) : Unseen w (·.setTimer t due) := by
  refine unseen_same h ?_ rfl rfl rfl rfl rfl
  simp [setTimer, veil, List.filter_filter, Bool.and_comm, List.filter_append, ht]

theorem unseen_modifyTask (h : w.Hidden) {f : Task → Task} (ht : t ≠ 0)
    (hf : ∀ x, f x.veil = (f x).veil) : Unseen w (·.modifyTask t f) := by
  refine ⟨fun n a => ?_, rfl, rfl, ?_, h.queue, h.handles⟩
  · simp only [modifyTask, veil]
    congr 1
    refine List.ext_getElem? fun j => ?_
    rcases Nat.eq_zero_or_pos j with rfl | hj
    · simp [ht, List.getElem?_set]
    · have hj0 : 0 ≠ j := by omega
      simp only [List.getElem?_modify, List.getElem?_set_ne hj0, List.getElem?_map]
      by_cases htj : t = j
      · subst htj
        cases w.tasks[t]? <;> simp [hf]
      · simp [htj]
  · rw [task?_modifyTask_other w f ht.symm]
    exact h.main

theorem unseen_waitFor (h : w.Hidden) (ht : t ≠ 0) (hi : i ≠ 0) : Unseen w (·.waitFor t i) :=
  unseen_modifyTask h hi fun x => by simp [Task.veil, Option.filter, ht]

theorem unseen_cancel (h : w.Hidden) (ht : t ≠ 0) : Unseen w (·.cancel t) := by
  have hd : Unseen w (·.modifyTask t fun x => { x with cancelled := true }) := unseen_modifyTask h ht fun _ => rfl
  have hm : Unseen w fun v => (v.modifyTask t fun x => { x with cancelled := true }).wake t :=
    hd.comp (unseen_wake hd.hidden ht)
  have hv (n a : Nat) := task?_veil (n := n) (a := a) w ht
  suffices hs : (∀ n a, (w.veil n a).cancel t = w.veil n a) ∧ w.cancel t = w ∨
      (∀ n a, (w.veil n a).cancel t = ((w.veil n a).modifyTask t fun x => { x with cancelled := true }).wake t) ∧
        w.cancel t = (w.modifyTask t fun x => { x with cancelled := true }).wake t by
    rcases hs with ⟨h1, h2⟩ | ⟨h1, h2⟩
    · exact ⟨fun n a => by rw [h1, h2], by rw [h2], by rw [h2], by rw [h2]; exact h⟩
    · exact ⟨fun n a => by rw [h1, h2]; exact hm.veil n a, by rw [h2]; exact hm.now,
        by rw [h2]; exact hm.allowance, by rw [h2]; exact hm.hidden⟩
  simp only [cancel, hv]
  cases w.task? t with
  | none => exact .inl ⟨fun _ _ => rfl, rfl⟩
  | some x =>
    by_cases he : x.ended.isSome = true
    · exact .inl ⟨fun _ _ => if_pos he, if_pos he⟩
    · exact .inr ⟨fun _ _ => if_neg he, if_neg he⟩

theorem unseen_leaveLock (h : w.Hidden) (ticket : Nat) : Unseen w (·.leaveLock ticket) := by
  have hl : (w.lock.leave ticket).1 ≠ some 0 ∧ ∀ q ∈ (w.lock.leave ticket).2.queue, q.2 ≠ 0 := by
    unfold Lock.leave Lock.release
    split_ifs
    · cases hq : w.lock.queue with
      | nil => simp
      | cons q rest =>
        have := h.queue
        simp only [hq, List.forall_mem_cons] at this
        exact ⟨by simpa using this.1, this.2⟩
    · exact ⟨by simp, fun q hq => h.queue q (List.mem_filter.1 hq).1⟩
  have hv : Hidden { w with lock := (w.lock.leave ticket).2 } := ⟨h.main, hl.2, h.handles⟩
  have hw := unseen_wake? hv hl.1
  exact ⟨hw.veil, hw.now, hw.allowance, hw.hidden⟩

theorem unseen_tell (h : w.Hidden) (note : Notice) : Unseen w (·.tell note) := by
  cases note with
  | navigated => exact unseen_start h navigation
  | fired l =>
    obtain ⟨x, hx, hi⟩ := h.main
    obtain ⟨rest, hw⟩ : ∃ rest, w.tasks = x :: rest := by
      cases hts : w.tasks with
      | nil => simp [task?, hts] at hx
      | cons y rest =>
        simp only [task?, hts, List.getElem?_cons_zero, Option.some.injEq] at hx
        exact ⟨rest, by rw [hx]⟩
    have hfind (n a : Nat) : (w.veil n a).tasks.findIdx? (awaits l) = w.tasks.findIdx? (awaits l) := by
      simp only [veil, hw, List.map_cons, List.set_cons_zero, List.findIdx?_cons, hi l,
        List.findIdx?_map]
      rfl
    have hne : w.tasks.findIdx? (awaits l) ≠ some 0 := by
      simp only [hw, List.findIdx?_cons, hi l]
      simp
    have hwake := unseen_wake? h hne
    refine ⟨fun n a => ?_, hwake.now, hwake.allowance, hwake.hidden⟩
    simp only [tell, hfind]
    exact hwake.veil n a

theorem unseen_withScene (h : w.Hidden) (s : Scene) : Unseen w (·.withScene s) := by
  suffices hns : ∀ (ns : List Notice) (v : World), v.Hidden → Unseen v fun u => ns.foldl tell u by
    have hv : Hidden { w with scene := { s with notices := [] } } := ⟨h.main, h.queue, h.handles⟩
    have hu := hns s.notices _ hv
    exact ⟨hu.veil, hu.now, hu.allowance, hu.hidden⟩
  intro ns
  induction ns with
  | nil => exact fun v hv => .still hv
  | cons note ns ih => exact fun v hv => (unseen_tell hv note).comp (ih _ (unseen_tell hv note).hidden)

/-! Tasks that end -/

theorem unseen_dropFrame (h : w.Hidden) (f : Frame) : Unseen w (·.dropFrame f) := by
  cases f with
  | load path phase =>
    cases phase with
    | arriving => exact .still h
    | _ => exact unseen_leaveLock h _
  | waitLoad loaded l =>
    cases l with
    | none => exact .still h
    | some l => exact unseen_same h (fun _ _ => rfl) rfl rfl rfl rfl rfl
  | _ => exact .still h

theorem unseen_dropFrames (stack : List Frame) (h : w.Hidden) :
    Unseen w fun v => stack.foldl dropFrame v := by
  induction stack generalizing w with
  | nil => exact .still h
  | cons f rest ih => exact (unseen_dropFrame h f).comp (ih (unseen_dropFrame h f).hidden)

theorem unseen_endTask (h : w.Hidden) (ht : t ≠ 0) (how : TaskReport) : Unseen w (·.endTask t how) := by
  have hm : Unseen w (·.modifyTask t fun task =>
      { task with stack := [], returned := none, ended := some how }) := unseen_modifyTask h ht fun _ => rfl
  have hv (n a : Nat) : ((w.veil n a).task? t).bind (·.waiter) =
      ((w.task? t).bind (·.waiter)).filter (· ≠ 0) := by
    rw [task?_veil w ht]
    cases w.task? t <;> rfl
  have he (v : World) : v.endTask t how = (v.modifyTask t fun task =>
      { task with stack := [], returned := none, ended := some how }).wake? ((v.task? t).bind (·.waiter)) := rfl
  by_cases h0 : (w.task? t).bind (·.waiter) = some 0
  · -- The main task is woken, and nobody in its stead.
    rw [h0] at hv
    refine ⟨fun n a => ?_, ?_, ?_, ?_⟩
    · simp only [he, h0, hv]
      exact hm.veil n a
    all_goals simp only [he, h0]
    · exact hm.now
    · exact hm.allowance
    · exact ⟨hm.hidden.main, hm.hidden.queue, hm.hidden.handles⟩
  · have hk := unseen_wake? hm.hidden h0
    have hf : ((w.task? t).bind (·.waiter)).filter (· ≠ 0) = (w.task? t).bind (·.waiter) := by
      cases hw : (w.task? t).bind (·.waiter) with
      | none => rfl
      | some u =>
        rw [hw] at h0
        have hu : u ≠ 0 := by simpa using h0
        simp [Option.filter, hu]
    refine ⟨fun n a => ?_, hk.now.trans hm.now, hk.allowance.trans hm.allowance, hk.hidden⟩
    simp only [he, hv, hf]
    rw [hm.veil]
    exact hk.veil n a

theorem unseen_cancelNow (h : w.Hidden) (ht : t ≠ 0) : Unseen w (·.cancelNow t) := by
  have hs (n a : Nat) : (((w.veil n a).task? t).map (·.stack)).getD [] = ((w.task? t).map (·.stack)).getD [] := by
    rw [task?_veil w ht]
    cases w.task? t <;> rfl
  have hc : Unseen w (·.clearTimer t) := unseen_clearTimer h
  have hd := hc.comp (unseen_dropFrames (((w.task? t).map (·.stack)).getD []) hc.hidden)
  have hm := hd.comp (unseen_modifyTask (f := fun task => { task with stack := [], returned := none })
    hd.hidden ht fun _ => rfl)
  have he := hm.comp (unseen_endTask hm.hidden ht .cancelled)
  refine ⟨fun n a => ?_, he.now, he.allowance, he.hidden⟩
  simp only [cancelNow, dropStack, hs]
  exact he.veil n a

end World

end PageTest
