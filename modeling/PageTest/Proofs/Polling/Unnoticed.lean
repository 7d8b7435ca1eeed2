import PageTest.Proofs.Polling.Deadline
import PageTest.Proofs.Polling.Escort

/-! How often a driver looks at the log, and how long it would have waited, cannot be told from what it
reports of a load that returns in time, nor from what it leaves behind. Two drivers cut the same
entries into pieces of their own, and may come to know of the end in ways of their own. -/

namespace PageTest

open World

/-- A load was started, and nobody drives. -/
def World.unattended (w : World) (p : String) : World :=
  ({ w with running := none }.start [.load p .arriving]).2.veil w.now 0

/-- A driver whose load returns in time: `n` steps after its start the load has returned and the
deadline has not come, and there are up to `m` steps from then on. The driver is not back before. -/
structure Timely (su : Setup) (p : String) (below : List Frame) (w w₀ : World) (n m : Nat) : Prop where
  launch : w.launch su 0 below p = .ok w₀
  driving : ∀ act ∈ w₀.actsOf su n, act.before.Driving 0 below
  waiting : (w₀.afterSteps su n).Driving 0 below
  returned : (w₀.afterSteps su n).ended? w.tasks.length = some .done
  intime : (w₀.afterSteps su n).now < w.now + su.driver.timeoutSecs * 1000
  closing : ∀ act ∈ (w₀.afterSteps su n).actsOf su m, act.before.Driving 0 below

variable {su : Setup} {c : Code} {p : String} {ms secs L t₀ n m : Nat} {below : List Frame} {acts : List Act}
variable {w w₀ w' v r : World} {d : Drive} {phase : DrivePhase} {a : Activity}

/-- Nobody notices the start of a driver. -/
theorem Escorts.of_launch (hd : w.Deserted) (hl : w.launch (su.polling ms secs) 0 below p = .ok w₀) :
    Escorts su w.tasks.length (w.unattended p) w₀ := by
  have hwork := hd.at_work hl
  have hother (i : Nat) (hi : i ≠ 0) := World.task?_launch hl hi
  have hlock : w₀.lock = w.lock := by rw [World.launch_eq hl]; rfl
  have hnow : w₀.now = w.now := by rw [World.launch_eq hl]; rfl
  have hveil : w₀.veil w.now 0 = w.unattended p := by
    rw [World.launch_eq hl]
    exact congrArg (fun v : World => { v with running := none })
      (veil_modifyMain (n := w.now) (a := 0) (w.start [.load p .arriving]).2 _)
  have hrun : w₀.running = some 0 := by rw [World.launch_eq hl]
  obtain ⟨x, hx, hs, -⟩ := hwork.drives
  have hended : w₀.ended? w.tasks.length = none := by
    cases hwork.duty with
    | looking _ _ he => exact he
  refine .along (n := w.now) (a := 0) ⟨.inl hnow.symm, .inr (.inl hrun)⟩
    ⟨⟨x, hx, fun l => by simp [World.awaits, hs]⟩, by rw [hlock]; exact hd.queue, hwork.poised.handles.1⟩ ?_ ?_
    (fun _ => hended) (by rw [hveil]; exact fun _ => id)
  · intro t ht
    rw [waiter?, hother _ hwork.poised.load_ne, if_pos rfl] at ht
    simp [Task.start] at ht
  · have hstack (i : Nat) (b : Activity) (hb : (w₀.veil w.now 0).core.tasks[i]? = some b) :
        b.stack = [] ∨ b.stack = [.load p .arriving] := by
      rw [getElem?_core] at hb
      obtain ⟨y, hy, rfl⟩ := Option.map_eq_some_iff.1 hb
      by_cases hi : i = 0
      · subst hi
        rw [task?, veil, List.getElem?_set_self (by simpa using (List.getElem?_eq_some_iff.1 hx).1)] at hy
        obtain rfl := Option.some.inj hy
        exact .inl rfl
      · rw [task?_veil _ hi, hother i hi] at hy
        obtain ⟨z, hz, rfl⟩ := Option.map_eq_some_iff.1 hy
        split_ifs at hz
        · obtain rfl := Option.some.inj hz
          exact .inr rfl
        · exact .inl (hd.others i z hi hz).1
    refine ⟨fun i b hb g hg => ?_, .inr fun i b hb g hg => ?_⟩
    all_goals rcases hstack i b hb with h1 | h1 <;> rw [h1] at hg
    · simp at hg
    · obtain rfl := List.mem_singleton.1 hg
      rfl
    · simp at hg
    · obtain rfl := List.mem_singleton.1 hg
      rfl

/-- Time never goes back. -/
theorem AtWork.now_le (h : AtWork su p L t₀ below acts w d phase) (hs : w.step? su = some w') : w.now ≤ w'.now := by
  have hn : Next su (fun _ => False) w w.running w' := next_of_step? hs
  generalize w.running = mover at hn
  cases hn with
  | @move t _ =>
    by_cases ht : t = 0
    · subst ht
      obtain ⟨x, hx, hst, hret, -⟩ := h.drives
      obtain ⟨l, ts, hcore, -⟩ := Watch.runDrive_core su w 0 d phase
      have hx' : w.core.tasks[0]? = some x.activity := by rw [getElem?_core, hx]; rfl
      have := congrArg Core.now (core_runTask su hx' hst)
      rw [Core.settle_now, show x.activity.returned = none from hret,
        show (Frame.drive d phase).act su w 0 none = Frame.runDrive su w 0 d phase from rfl, hcore] at this
      exact this.ge
    · exact (aloof_runTask su h.poised ht).now.ge
  | rest _ hl => exact hl.now
  | @drop v t _ hl hv =>
    rw [show (v.cancelNow t).now = v.now from congrArg Core.now (core_cancelNow v t)]
    exact hl.now
  | abort _ hf => exact hf.elim

/-- What is known of a driver that looks at the log as it likes, up to its return. -/
structure Escorted (su : Setup) (c : Code) (p : String) (L : Nat) (below : List Frame) (ms secs : Nat) (w : World)
    (acts : List Act) (v : World) : Prop where
  rounds : Rounded (su.polling ms secs) c p L w.now below acts v
  escorts : Escorts su L (w.unattended p) v
  history : v.log.history = w.log.history ++ said L acts

theorem Escorted.step (h : Escorted su c p L below ms secs w acts v) (hu : su.Unread) (hp : 1 ≤ ms) (hm : c.Mute)
    (hc : ∀ sc ∈ su.catalog, sc.obeys c = true) (hin : v.Driving 0 below)
    (ht : v.ended? L = none → v.now < w.now + secs * 1000) (hs : v.step? (su.polling ms secs) = some w') :
    Escorted su c p L below ms secs w (acts ++ [⟨v.running, v, w'⟩]) w' := by
  have hr := h.rounds.step hp hm hc hin hs
  rcases h.rounds with ⟨d, phase, a, h'⟩ | ⟨phase, a, o, h'⟩
  · refine ⟨hr, h.escorts.step h'.work hu hp ht hs ?_, ?_⟩
    · rcases hr with ⟨d', phase', _, hr⟩ | ⟨_, b, o, hr⟩
      · exact .inr ⟨d', phase', hr.work.drives⟩
      · refine .inl ?_
        rw [ended?_core, hr.came.stage.load]
        exact hr.came.returned.ended
    · rw [h'.watch.step_history hm hc (next_of_step? hs), h.history, said_append, List.append_assoc]
  · exact absurd hin h'.came.back.not_driving

namespace Escorted

/-- Any number of steps, up to the return of the driver. -/
theorem run (n : Nat) (h : Escorted su c p L below ms secs w acts v) (hu : su.Unread) (hp : 1 ≤ ms) (hm : c.Mute)
    (hc : ∀ sc ∈ su.catalog, sc.obeys c = true)
    (hin : ∀ act ∈ v.actsOf (su.polling ms secs) n, act.before.Driving 0 below)
    (ht : ∀ act ∈ v.actsOf (su.polling ms secs) n,
      act.before.ended? L = none → act.before.now < w.now + secs * 1000) :
    Escorted su c p L below ms secs w (acts ++ v.actsOf (su.polling ms secs) n)
      (v.afterSteps (su.polling ms secs) n) :=
  afterSteps_induction (C := fun v => v.Driving 0 below ∧ (v.ended? L = none → v.now < w.now + secs * 1000))
    (fun _ _ _ h hC => h.step hu hp hm hc hC.1 hC.2) n h fun act ha => ⟨hin act ha, ht act ha⟩

end Escorted

/-- No act of the rounds begins after their end. -/
theorem Rounded.before_now_le (n : Nat) (h : Rounded su c p L t₀ below [] w) (hp : 1 ≤ su.driver.pollIntervalMs)
    (hm : c.Mute) (hc : ∀ sc ∈ su.catalog, sc.obeys c = true)
    (hin : ∀ act ∈ w.actsOf su n, act.before.Driving 0 below) :
    ∀ act ∈ w.actsOf su n, act.before.now ≤ (w.afterSteps su n).now := by
  suffices hall : Rounded su c p L t₀ below ([] ++ w.actsOf su n) (w.afterSteps su n) ∧
      ∀ act ∈ [] ++ w.actsOf su n, act.before.now ≤ (w.afterSteps su n).now from hall.2
  refine afterSteps_induction (C := (·.Driving 0 below))
    (P := fun acts v => Rounded su c p L t₀ below acts v ∧ ∀ act ∈ acts, act.before.now ≤ v.now)
    ?_ n ⟨h, by simp⟩ hin
  intro acts v v' ⟨hr, hle⟩ hd hs
  refine ⟨hr.step hp hm hc hd hs, fun act ha => ?_⟩
  rcases hr with ⟨d, phase, a, hr⟩ | ⟨phase, a, o, hr⟩
  · have hnow := hr.work.now_le hs
    rcases List.mem_append.1 ha with h1 | h1
    · exact (hle act h1).trans hnow
    · obtain rfl := List.mem_singleton.1 h1
      exact hnow
  · exact absurd hd hr.came.back.not_driving

/-- What a driver that is back has brought. -/
structure Brought (su : Setup) (p : String) (w v : World) (o : Outcome) : Prop where
  /-- The world it has come back to is the one that there would be without it. -/
  settles : ∃ a, Settles su w.tasks.length (w.unattended p) (v.veil v.now a)
  waiting : v.log.waiting = []
  report : ∃ es, v.log.history = w.log.history ++ es ∧
    o = .value (.report (.ofLogs p es false (su.timeAt w.now) (v.now - w.now)))

/-- Two drivers bring the same. -/
theorem Brought.same {o o' : Outcome} {v' : World} (h : Brought su p w v o) (h' : Brought su p w v' o') :
    o = o' ∧ v.registry = v'.registry ∧ v.scene = v'.scene ∧ v.now = v'.now ∧ v.log = v'.log := by
  obtain ⟨a, hs⟩ := h.settles
  obtain ⟨a', hs'⟩ := h'.settles
  have heq := hs.unique hs'
  have hnow : v.now = v'.now := (congrArg World.now heq :)
  have hhist : v.log.history = v'.log.history := (congrArg (fun u => u.log.waiting) heq :)
  have hlog : v.log = v'.log := by
    have drained (l : Log) (hl : l.waiting = []) : l = ⟨l.history, []⟩ := by
      rw [Log.history, hl, List.append_nil, ← hl]
    rw [drained _ h.waiting, drained _ h'.waiting, hhist]
  obtain ⟨es, hes, rfl⟩ := h.report
  obtain ⟨es', hes', rfl⟩ := h'.report
  obtain rfl : es = es' := List.append_cancel_left (hes.symm.trans (hhist.trans hes'))
  exact ⟨by rw [hnow], (congrArg World.registry heq :), (congrArg World.scene heq :), hnow, hlog⟩

namespace Timely

variable (h : Timely (su.polling ms secs) p below w w₀ n m) (hp : 1 ≤ ms) (hm : c.Mute)
variable (hc : ∀ sc ∈ su.catalog, sc.obeys c = true) (hd : w.Deserted) (hw : w.log.waiting = [])

include h hp hm hc hd hw

/-- The driver is still at its rounds when its load has returned. -/
theorem on_rounds : ∃ d phase a, OnRounds (su.polling ms secs) c p w.tasks.length w.now below
    (w₀.actsOf (su.polling ms secs) n) (w₀.afterSteps (su.polling ms secs) n) d phase a ∧ a.ended = some .done := by
  rcases (Rounded.of_launch (c := c) hd hw h.launch).run n hp hm hc h.driving with
    ⟨d, phase, a, hr⟩ | ⟨phase, a, o, hr⟩
  · have he := h.returned
    rw [ended?_core, hr.watch.stage.load] at he
    exact ⟨d, phase, a, hr, he⟩
  · exact absurd h.waiting hr.came.back.not_driving

theorem closed : Closing (su.polling ms secs) c p 0 w.tasks.length [] w.now below false
    (w₀.actsOf (su.polling ms secs) n) ((w₀.afterSteps (su.polling ms secs) n).actsOf (su.polling ms secs) m)
    ((w₀.afterSteps (su.polling ms secs) n).afterSteps (su.polling ms secs) m) := by
  obtain ⟨d, phase, a, hr, he⟩ := h.on_rounds hp hm hc hd hw
  have hlook (hphase : phase = .look false) : false = true := by
    have hended := hr.work.ended_of_look hphase
    rw [ended?_core, hr.watch.stage.load] at hended
    simp [show a.ended = none from hended] at he
  refine (afterSteps_induction (C := (·.Driving 0 below))
    (P := fun since v => Rounded (su.polling ms secs) c p w.tasks.length w.now below
      (w₀.actsOf (su.polling ms secs) n ++ since) v ∧ Closing (su.polling ms secs) c p 0 w.tasks.length [] w.now below
      false (w₀.actsOf (su.polling ms secs) n) since v) ?_ m
    ⟨.inl ⟨d, phase, a, by simpa using hr⟩, Closing.start hr.watch he h.intime hlook⟩ h.closing).2
  intro since v v' ⟨hrounds, hclosing⟩ hin hs
  refine ⟨by rw [← List.append_assoc]; exact hrounds.step hp hm hc hin hs,
    hclosing.step hin (fun htie => ?_) hm hc (next_of_step? hs)⟩
  rcases hrounds with ⟨d', phase', a', hr'⟩ | ⟨phase', a', o, hr'⟩
  · exact absurd htie hr'.work.not_tied
  · exact absurd hin hr'.came.back.not_driving

theorem escorted (hu : su.Unread) : Escorted su c p w.tasks.length below ms secs w
    (w₀.actsOf (su.polling ms secs) n ++ (w₀.afterSteps (su.polling ms secs) n).actsOf (su.polling ms secs) m)
    ((w₀.afterSteps (su.polling ms secs) n).afterSteps (su.polling ms secs) m) := by
  have hstart := Rounded.of_launch (c := c) hd hw h.launch
  have hlog : w₀.log = w.log := by rw [World.launch_eq h.launch]; rfl
  have h₀ : Escorted su c p w.tasks.length below ms secs w [] w₀ :=
    ⟨hstart, .of_launch hd h.launch, by simp [hlog]⟩
  -- Up to the return of the load there is time left.
  have h₁ := h₀.run n hu hp hm hc h.driving fun act ha _ =>
    (hstart.before_now_le n hp hm hc h.driving act ha).trans_lt h.intime
  -- After it, the load has ended for good.
  obtain ⟨d, phase, a, hr, he⟩ := h.on_rounds hp hm hc hd hw
  have hended : (w₀.afterSteps (su.polling ms secs) n).Ended w.tasks.length := by
    refine ⟨hr.watch.stage.main, fun h1 => ?_, a, hr.watch.stage.load, by simp [he]⟩
    have := (hr.watch.stage.turn h1).1
    simp [he] at this
  refine h₁.run m hu hp hm hc h.closing fun act ha hnone => ?_
  have hall : Run (su.polling ms secs) (fun _ => False) (w₀.afterSteps (su.polling ms secs) n) _ _ :=
    run_afterSteps m _
  obtain ⟨_, _, -, hrun, -⟩ := hall.each ha
  obtain ⟨-, -, b, hb, hsome⟩ := (hrun.ended hended).2
  rw [ended?_core, hb] at hnone
  simp [show b.ended = none from hnone] at hsome

/-- What a driver is back with whose load returned in time. -/
theorem brought (hu : su.Unread) (hmark : c.Unmarked) {o : Outcome}
    (ho : ((w₀.afterSteps (su.polling ms secs) n).afterSteps (su.polling ms secs) m).Back 0 below o) :
    Brought su p w ((w₀.afterSteps (su.polling ms secs) n).afterSteps (su.polling ms secs) m) o := by
  obtain ⟨a, logs, late, started, k, rfl, hcame, he, hlate⟩ := (h.closed hp hm hc hd hw).report ho
  obtain rfl : late = false := by simpa using fun h => (hlate h).1
  have hesc := h.escorted hp hm hc hd hw hu
  obtain ⟨hwait, rfl, rfl, rfl⟩ := hcame.whole hmark he
  refine ⟨?_, hwait, _, hesc.history, rfl⟩
  -- It is the driver's turn, and the load has ended: the escort is over.
  cases hesc.escorts with
  | along _ _ _ _ hon =>
    have := hon hcame.turn
    rw [ended?_core, hcame.stage.load] at this
    simp [he] at this
  | home _ _ _ hway => exact ⟨_, hway⟩

end Timely

/-- Bodies that append no end markers write none. -/
theorem Code.unmarked_writing : (Code.writing (· != .testEnd)).Unmarked := by
  rintro k kind (⟨-, h⟩ | h | ⟨-, h⟩)
  · rintro rfl
    simp [LogKind.isWord] at h
  · simpa [Code.writing, Role.manners] using h
  · rintro rfl
    simp at h

/-- Take two drivers that differ only in how often they look at the log and in how long they wait. If
nobody else looks into the log, and nobody but the load writes an end marker, then the load returning in
time for both, they are back at their second turn after that at the latest, with the same report, and
leave the same registry, page, clock and log. Nothing is left in the log for others to find. -/
theorem polling_unnoticed {ms₁ ms₂ secs₁ secs₂ n₁ n₂ m₁ m₂ : Nat} {v₁ v₂ : World}
    (hc : ∀ sc ∈ su.catalog, sc.obeys (.writing (· != .testEnd)) = true) (hu : su.Unread)
    (hp₁ : 1 ≤ ms₁) (hp₂ : 1 ≤ ms₂) (hd : w.Deserted) (hw : w.log.waiting = [])
    (h₁ : Timely (su.polling ms₁ secs₁) p below w v₁ n₁ m₁) (h₂ : Timely (su.polling ms₂ secs₂) p below w v₂ n₂ m₂) :
    let u₁ := v₁.afterSteps (su.polling ms₁ secs₁) n₁
    let u₂ := v₂.afterSteps (su.polling ms₂ secs₂) n₂
    let w₁ := u₁.afterSteps (su.polling ms₁ secs₁) m₁
    let w₂ := u₂.afterSteps (su.polling ms₂ secs₂) m₂
    (2 ≤ turns 0 (u₁.actsOf (su.polling ms₁ secs₁) m₁) → ∃ o, w₁.Back 0 below o) ∧
    (2 ≤ turns 0 (u₂.actsOf (su.polling ms₂ secs₂) m₂) → ∃ o, w₂.Back 0 below o) ∧
    ∀ o₁ o₂, w₁.Back 0 below o₁ → w₂.Back 0 below o₂ →
      (∃ r, o₁ = .value (.report r) ∧ o₂ = .value (.report r)) ∧
      w₁.registry = w₂.registry ∧ w₁.scene = w₂.scene ∧ w₁.now = w₂.now ∧ w₁.log = w₂.log ∧
      w₁.log.waiting = [] := by
  intro u₁ u₂ w₁ w₂
  have hm := Code.mute_writing (· != .testEnd)
  refine ⟨(h₁.closed hp₁ hm hc hd hw).exists_back, (h₂.closed hp₂ hm hc hd hw).exists_back, fun o₁ o₂ ho₁ ho₂ => ?_⟩
  have hb₁ := h₁.brought hp₁ hm hc hd hw hu Code.unmarked_writing ho₁
  have hb₂ := h₂.brought hp₂ hm hc hd hw hu Code.unmarked_writing ho₂
  obtain ⟨rfl, hreg, hscene, hnow, hlog⟩ := hb₁.same hb₂
  obtain ⟨es, -, rfl⟩ := hb₁.report
  exact ⟨⟨_, rfl, rfl⟩, hreg, hscene, hnow, hlog, hb₁.waiting⟩

/-- A path that passed, and how long that took. -/
def Outcome.isPassedAfter (ms : Nat) : Outcome → Bool
  | .value (.report r) => r.status == .passed && r.durationMs == ms
  | _ => false

/-- What a driver on the demo page starts from that looks at the log as often as that. -/
def Demo.polled (ms secs : Nat) : World :=
  ((world [] []).launch (setup.polling ms secs) 0 [] valuesPath).toOption.getD (world [] [])

/-- One driver looks at the log in the middle of the load, and the other does not. -/
theorem polling_unnoticed_demo :
    let w₁ := ((Demo.polled 3 1).afterSteps (Demo.setup.polling 3 1) 36).afterSteps (Demo.setup.polling 3 1) 3
    let w₂ := ((Demo.polled 50 10).afterSteps (Demo.setup.polling 50 10) 27).afterSteps (Demo.setup.polling 50 10) 3
    ∃ r, w₁.Back 0 [] (.value (.report r)) ∧ w₂.Back 0 [] (.value (.report r)) ∧ w₁.log = w₂.log ∧
      w₁.log.waiting = [] ∧ r.status = .passed ∧ r.durationMs = 10 := by
  intro w₁ w₂
  have h₁ : Timely (Demo.setup.polling 3 1) Demo.valuesPath [] (Demo.world [] []) (Demo.polled 3 1) 36 3 :=
    ⟨rfl, by decide +kernel, by decide +kernel, by decide +kernel, by decide +kernel, by decide +kernel⟩
  have h₂ : Timely (Demo.setup.polling 50 10) Demo.valuesPath [] (Demo.world [] []) (Demo.polled 50 10) 27 3 :=
    ⟨rfl, by decide +kernel, by decide +kernel, by decide +kernel, by decide +kernel, by decide +kernel⟩
  obtain ⟨hback₁, hback₂, hsame⟩ := polling_unnoticed (by decide +kernel) (by decide +kernel) (by decide) (by decide)
    Demo.deserted rfl h₁ h₂
  obtain ⟨o₁, ho₁⟩ := hback₁ (by decide +kernel)
  obtain ⟨o₂, ho₂⟩ := hback₂ (by decide +kernel)
  obtain ⟨⟨r, rfl, rfl⟩, -, -, -, hlog, hwait⟩ := hsame o₁ o₂ ho₁ ho₂
  obtain ⟨o, ho, hq⟩ := World.exists_back (D := 0) (w := w₁) (q := Outcome.isPassedAfter 10) (by decide +kernel)
  obtain rfl := ho.eq ho₁
  exact ⟨r, ho₁, ho₂, hlog, hwait, by simpa [Outcome.isPassedAfter] using hq⟩

end PageTest
