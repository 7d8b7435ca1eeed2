import PageTest.Proofs.Machine.Turn
import PageTest.Session

/-! From one world to a later one, step by step. A world is given by the task that has its turn, by what that task
is in the middle of, and by what it writes to. There is one lemma for each thing that can happen next. -/

namespace PageTest

/-- What a task writes to while it has its turn. -/
structure Desk where
  now : Nat
  log : Log
  registry : Registry Test
  page : Page Action
  lock : Lock
  allowance : Nat

def Desk.write (d : Desk) (es : List LogEntry) : Desk := { d with log := d.log.appendAll es }

namespace World

/-- Nobody has a turn, and this is what was written so far. -/
def idle (w : World) (d : Desk) : World := { w with
  now := d.now
  log := d.log
  registry := d.registry
  scene := { w.scene with page := d.page }
  lock := d.lock
  running := none
  allowance := d.allowance }

/-- The task is in the middle of something. -/
def parked (w : World) (t : Nat) (stack : List Frame) (returned : Option Outcome) : World :=
  w.modifyTask t fun x => { x with stack, returned }

/-- The task has its turn, in the middle of something. -/
def working (w : World) (t : Nat) (d : Desk) (stack : List Frame) (returned : Option Outcome) : World :=
  { (w.parked t stack returned).idle d with running := some t }

/-- The task is over. -/
def finished (w : World) (t : Nat) (how : TaskReport) : World :=
  w.modifyTask t fun x => { x with stack := [], returned := none, ended := some how }

/-- The main task is in the middle of something. -/
def Busy (w : World) : Prop := ∃ x, w.task? 0 = some x ∧ x.stack ≠ []

def Moves (su : Setup) (w w' : World) : Prop := w.Busy ∧ w.step? su = some w'

/-- The world comes to another in some steps, in all of which the main task is in the middle of something. -/
def Leads (su : Setup) : World → World → Prop := Relation.ReflTransGen (Moves su)

variable {su : Setup} {w w' w'' : World} {t : Nat} {ts : List Nat} {d d' : Desk} {x : Task}
variable {f f' : Frame} {stack rest : List Frame} {ret : Option Outcome} {m : Move}

theorem Leads.trans (h : w.Leads su w') (h' : w'.Leads su w'') : w.Leads su w'' := Relation.ReflTransGen.trans h h'

theorem Leads.of_eq (h : w.Leads su w') (he : w' = w'') : w.Leads su w'' := he ▸ h

theorem Leads.single (hb : w.Busy) (h : w.step? su = some w') : w.Leads su w' :=
  Relation.ReflTransGen.single ⟨hb, h⟩

/-- There is such a task, and it is the main one or that one is in the middle of something. -/
structure Engaged (w : World) (t : Nat) : Prop where
  exists_task : ∃ x : Task, w.task? t = some x
  main : t ≠ 0 → w.Busy

theorem parked_parked (w : World) (t : Nat) (st st' : List Frame) (ret ret' : Option Outcome) :
    (w.parked t st ret).parked t st' ret' = w.parked t st' ret' := by
  simp only [parked, modifyTask, List.modify_modify_eq]
  rfl

theorem finished_parked (w : World) (t : Nat) (st : List Frame) (ret : Option Outcome) (how : TaskReport) :
    (w.parked t st ret).finished t how = w.finished t how := by
  simp only [parked, finished, modifyTask, List.modify_modify_eq]
  rfl

theorem parked_working (w : World) (t : Nat) (d : Desk) (st st' : List Frame) (ret ret' : Option Outcome) :
    (w.working t d st ret).parked t st' ret' = w.working t d st' ret' :=
  congrArg (fun v : World => { v.idle d with running := some t }) (parked_parked w t st st' ret ret')

theorem working_parked (w : World) (t : Nat) (d : Desk) (st st' : List Frame) (ret ret' : Option Outcome) :
    (w.parked t st ret).working t d st' ret' = w.working t d st' ret' := by
  rw [working, parked_parked]
  rfl

theorem task?_parked (hx : w.task? t = some x) (st : List Frame) (ret : Option Outcome) :
    (w.parked t st ret).task? t = some { x with stack := st, returned := ret } := by
  rw [parked, task?_modifyTask_self, hx]
  rfl

theorem task?_parked_other {i : Nat} (hi : i ≠ t) (w : World) (st : List Frame) (ret : Option Outcome) :
    (w.parked t st ret).task? i = w.task? i :=
  task?_modifyTask_other w _ hi

theorem task?_finished (hx : w.task? t = some x) (how : TaskReport) :
    (w.finished t how).task? t = some { x with stack := [], returned := none, ended := some how } := by
  rw [finished, task?_modifyTask_self, hx]
  rfl

theorem task?_finished_other {i : Nat} (hi : i ≠ t) (w : World) (how : TaskReport) :
    (w.finished t how).task? i = w.task? i :=
  task?_modifyTask_other w _ hi

/-! A task that is started comes after those that are there. -/

theorem task?_start (hx : w.task? t = some x) (st : List Frame) : (w.start st).2.task? t = some x :=
  (List.getElem?_append_left (List.getElem?_eq_some_iff.1 hx).1).trans hx

theorem task?_started (w : World) (st : List Frame) : (w.start st).2.task? w.tasks.length = some (.start st) :=
  List.getElem?_concat_length

theorem task?_of_start {st : List Frame} (ht : t ≠ w.tasks.length) (hx : (w.start st).2.task? t = some x) :
    w.task? t = some x := by
  have hlt : t < (w.tasks ++ [Task.start st]).length := (List.getElem?_eq_some_iff.1 hx).1
  rw [List.length_append, List.length_singleton] at hlt
  exact (List.getElem?_append_left (by omega)).symm.trans hx

theorem ready_start (hr : w.ready = []) (st : List Frame) : (w.start st).2.ready = [w.tasks.length] := by
  show w.ready ++ [w.tasks.length] = _
  rw [hr]
  rfl

theorem parked_self (hx : w.task? t = some x) : w.parked t x.stack x.returned = w := by
  have hm : w.tasks.modify t (fun y => { y with stack := x.stack, returned := x.returned }) =
      w.tasks.modify t id := modify_congr fun y hy => by
    obtain rfl : x = y := Option.some.inj (hx.symm.trans hy)
    rfl
  rw [parked, modifyTask, hm, List.modify_id]

theorem Engaged.busy (hw : w.Engaged t) (d : Desk) (hs : stack ≠ [] ∨ t ≠ 0) : (w.working t d stack ret).Busy := by
  by_cases ht : t = 0
  · subst ht
    obtain ⟨x, hx⟩ := hw.exists_task
    exact ⟨_, task?_parked hx stack ret, hs.resolve_right (fun h => h rfl)⟩
  · obtain ⟨x, hx, hne⟩ := hw.main ht
    exact ⟨x, (task?_parked_other (Ne.symm ht) w stack ret).trans hx, hne⟩

theorem runTask_working (hw : w.Engaged t) : (w.working t d (f :: rest) ret).runTask su t =
    (f.act su (w.working t d (f :: rest) ret) t ret).1.apply t rest
      (f.act su (w.working t d (f :: rest) ret) t ret).2 := by
  obtain ⟨x, hx⟩ := hw.exists_task
  have hx' : (w.working t d (f :: rest) ret).task? t = some { x with stack := f :: rest, returned := ret } :=
    task?_parked hx _ _
  unfold runTask
  rw [hx']
  cases ret <;> rfl

/-- The task moves and keeps its turn. -/
theorem Engaged.act (hw : w.Engaged t)
    (h : f.act su (w.working t d (f :: rest) ret) t ret = (w'.working t d' (f :: rest) ret, m))
    (hm : m.waits = false) :
    (w.working t d (f :: rest) ret).Leads su (w'.working t d' (m.onto rest).1 (m.onto rest).2) := by
  refine .single (hw.busy d (.inl (by simp))) ?_
  simp only [step?, show (w.working t d (f :: rest) ret).running = some t from rfl, runTask_working hw, h]
  cases m with
  | halt f => simp [Move.waits] at hm
  | _ => exact congrArg some (parked_working ..)

theorem Engaged.goOn (hw : w.Engaged t)
    (h : f.act su (w.working t d (f :: rest) ret) t ret = (w'.working t d' (f :: rest) ret, .goOn f')) :
    (w.working t d (f :: rest) ret).Leads su (w'.working t d' (f' :: rest) none) :=
  hw.act h rfl

theorem Engaged.call {callee : Frame} (hw : w.Engaged t)
    (h : f.act su (w.working t d (f :: rest) ret) t ret = (w'.working t d' (f :: rest) ret, .call f' callee)) :
    (w.working t d (f :: rest) ret).Leads su (w'.working t d' (callee :: f' :: rest) none) :=
  hw.act h rfl

theorem Engaged.leave {o : Outcome} (hw : w.Engaged t)
    (h : f.act su (w.working t d (f :: rest) ret) t ret = (w'.working t d' (f :: rest) ret, .leave o)) :
    (w.working t d (f :: rest) ret).Leads su (w'.working t d' rest (some o)) :=
  hw.act h rfl

/-- The task moves and waits. -/
theorem Engaged.halt (hw : w.Engaged t)
    (h : f.act su (w.working t d (f :: rest) ret) t ret = (w'.working t d' (f :: rest) ret, .halt f'))
    (hx : w'.task? t = some x) (hc : x.cancelled = false) :
    (w.working t d (f :: rest) ret).Leads su ((w'.parked t (f' :: rest) none).idle d') := by
  refine .single (hw.busy d (.inl (by simp))) ?_
  have hp := parked_working w' t d' (f :: rest) (f' :: rest) ret none
  have hc' : ((((w'.parked t (f' :: rest) none).idle d').task? t).map (·.cancelled)).getD false = false := by
    rw [show ((w'.parked t (f' :: rest) none).idle d').task? t = _ from task?_parked hx (f' :: rest) none]
    exact hc
  simp only [step?, show (w.working t d (f :: rest) ret).running = some t from rfl, runTask_working hw, h, apply]
  unfold parked at hp
  rw [hp]
  exact congrArg some (if_neg (Bool.eq_false_iff.1 hc'))

theorem turn_eq (hx : w.task? t = some x) (he : x.ended = none) (hc : x.cancelled = false) :
    w.turn t = w.giveTurn t := by
  simp [turn, hx, he, hc]

/-- The task that has been ready longest has its turn. -/
theorem leads_turn (hb : w.Busy) (hr : w.ready = t :: ts) (hx : w.task? t = some x) (he : x.ended = none)
    (hc : x.cancelled = false) : (w.idle d).Leads su
      (World.working { w with ready := ts } t { d with allowance := fullAllowance } x.stack x.returned) := by
  refine .single hb ?_
  have hr' : (w.idle d).ready = t :: ts := hr
  have hturn : World.turn { w.idle d with ready := ts } t = World.giveTurn { w.idle d with ready := ts } t :=
    turn_eq (x := x) hx he hc
  have hp : World.parked { w with ready := ts } t x.stack x.returned = { w with ready := ts } := parked_self hx
  have hgoal : World.giveTurn { w.idle d with ready := ts } t = { World.idle { w with ready := ts }
      { d with allowance := fullAllowance } with running := some t } := rfl
  rw [working, hp, ← hgoal, ← hturn]
  simp only [step?, show (w.idle d).running = none from rfl, hr']

theorem step?_round (hr : w.running = none) (hq : w.ready = []) : w.step? su = w.nextRound? := by
  simp [step?, hr, hq]

/-- Nobody is ready, and the clock moves on to the next timer but the last one. -/
theorem leads_advance {late due : Nat} (hb : w.Busy) (hr : w.ready = []) (hm : w.mainReady = false)
    (hy : w.yielding = []) (ha : w.alarm = none) (hti : w.timers = [(late, 0), (due, t)]) (ht : t ≠ 0)
    (hdue : d.now ≤ due) (hlate : due < late) :
    (w.idle d).Leads su (World.idle { w with timers := [(late, 0)], ready := [t] } { d with now := due }) := by
  refine .single hb ?_
  have hmin : min late due = due := by omega
  have hnext : (w.idle d).nextDue = some due := by simp [nextDue, idle, hti, ha, hmin]
  have hnot : ¬ late ≤ due := by omega
  have hadv : (w.idle d).advanceTo due =
      World.idle { w with timers := [(late, 0)], ready := [t] } { d with now := due } := by
    simp [advanceTo, idle, hti, ha, hnot, hlate, wakeAll, wake, hr, ht, hdue]
  have hround : (w.idle d).nextRound? = some ((w.idle d).advanceTo due) := by
    have hwoken : ((w.idle d).mainReady || !(w.idle d).yielding.isEmpty) = false := by simp [idle, hm, hy]
    have hmain : ((w.idle d).advanceTo due).mainReady = false := by rw [hadv]; exact hm
    simp [nextRound?, hwoken, hnext, hmain]
  rw [step?_round (w := w.idle d) rfl hr, hround, hadv]

/-- Nobody is ready but the main task, and a round begins with its turn. -/
theorem leads_round (hr : w.ready = []) (hm : w.mainReady = true) (hy : w.yielding = []) (hx : w.task? 0 = some x)
    (hs : x.stack ≠ []) : (w.idle d).Leads su
      (World.working { w with mainReady := false } 0 { d with allowance := fullAllowance } x.stack x.returned) := by
  refine .single ⟨x, hx, hs⟩ ?_
  have hyield : (w.idle d).wakeYielding = w.idle d := by
    simp [wakeYielding, idle, hy, wakeAll]
  have hp : World.parked { w with mainReady := false } 0 x.stack x.returned = { w with mainReady := false } :=
    parked_self hx
  have hround : (w.idle d).nextRound? = some ({ w.idle d with mainReady := false }.giveTurn 0) := by
    simp [nextRound?, hyield, show (w.idle d).mainReady = true from hm]
  rw [working, hp, step?_round (w := w.idle d) rfl hr, hround]
  rfl

/-- A task that has nothing left to do ends, and whoever waits for it is woken. -/
theorem leads_end (hw : w.Engaged t) (ht : t ≠ 0) (hx : w.task? t = some x) :
    (w.working t d [] ret).Leads su
      (((w.finished t (reportOf (ret.getD (.value .done)))).wake? x.waiter).idle d) := by
  refine .single (hw.busy d (.inr ht)) ?_
  have hx' : (w.working t d [] ret).task? t = some { x with stack := [], returned := ret } := task?_parked hx _ _
  have hwake (v : World) (o : Option Nat) : (v.idle d).wake? o = (v.wake? o).idle d := by
    cases o with
    | none => rfl
    | some t => simp only [wake?, wake, show (v.idle d).ready = v.ready from rfl]; split_ifs <;> rfl
  have hend (how : TaskReport) : ((w.parked t [] ret).idle d).endTask t how =
      ((w.finished t how).wake? x.waiter).idle d := by
    rw [← hwake, ← finished_parked w t [] ret how]
    exact congrArg (((w.parked t [] ret).finished t how).idle d).wake? (by
      rw [show ((w.parked t [] ret).idle d).task? t = _ from hx']
      rfl)
  have hrun : (w.working t d [] ret).runTask su t =
      ((w.parked t [] ret).idle d).endTask t (reportOf (ret.getD (.value .done))) := by
    unfold runTask
    rw [hx']
    exact if_neg ht
  simp only [step?, show (w.working t d [] ret).running = some t from rfl, hrun, hend]

end World

/-! Sessions -/

namespace Session

variable {su : Setup} {w w' : World} {s : Session} {x : Task} {o : Outcome}

theorem step?_of_moves (h : w.Moves su w') (hb : s.busy = true) (hl : s.limit = none) (hw : s.world = w) :
    s.step? su = some { s with world := w' } := by
  obtain ⟨⟨x, hx, hs⟩, hstep⟩ := h
  have hout : s.outcome? = none := by simp [outcome?, hw, hx, hs]
  have hover : s.overdue = false := by simp [overdue, hl]
  simp [step?, hb, hout, hover, hw, hstep]

/-- While a step is in progress, the session goes the way of its world. -/
theorem exists_run (h : w.Leads su w') (hb : s.busy = true) (hl : s.limit = none) (hw : s.world = w) :
    ∃ n, ∀ k, run su (n + k) s = run su k { s with world := w' } := by
  induction h using Relation.ReflTransGen.head_induction_on generalizing s with
  | refl =>
    subst hw
    exact ⟨0, fun k => by rw [Nat.zero_add]⟩
  | @head a c hac _ ih =>
    obtain ⟨n, hn⟩ := ih (s := { s with world := c }) hb hl rfl
    refine ⟨n + 1, fun k => ?_⟩
    rw [Nat.add_right_comm, run, step?_of_moves hac hb hl hw]
    exact hn k

/-- A session that has answered its last step stays as it is. -/
theorem run_answered (k : Nat) (hb : s.busy = false) (ha : s.ahead = []) : run su k s = s := by
  cases k with
  | zero => rfl
  | succ k => simp [run, step?, hb, ha]

/-- The step comes to what the main task is left with. -/
theorem exists_answer (h : w.Leads su w') (hb : s.busy = true) (hl : s.limit = none) (ha : s.ahead = [])
    (hn : s.answers = []) (hw : s.world = w) (hx : w'.task? 0 = some x) (hs : x.stack = []) (hr : x.returned = some o) :
    ∃ n, ∀ k, (run su (n + k) s).answers.map (·.outcome) = [o] := by
  obtain ⟨n, hrun⟩ := exists_run h hb hl hw
  have hstep : step? su { s with world := w' } = some (answer { s with world := w' } o) := by
    simp [step?, hb, outcome?, hx, hs, hr]
  refine ⟨n + 1, fun k => ?_⟩
  rw [Nat.add_assoc, Nat.add_comm 1, hrun, run, hstep]
  dsimp only
  rw [run_answered (s := answer { s with world := w' } o) k rfl ha]
  simp [answer, hn]

end Session

end PageTest
