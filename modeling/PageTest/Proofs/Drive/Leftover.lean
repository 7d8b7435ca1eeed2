import PageTest.Proofs.Drive.Tour

/-! What a driver leaves in the log when it comes back. With a report it leaves nothing. When the
loader panicked there is no report, and the driver does not look at the log again: whatever the load
wrote since the last look is left, and gets into the report of the next path. -/

namespace PageTest

/-- A driver looks at the log. -/
def Act.looks (D : Nat) (act : Act) : Bool :=
  act.mover == some D && act.activity?.any fun a => match a.stack with
    | .drive _ (.look _) :: _ => true
    | _ => false

/-- What happened since a driver last looked at the log. -/
def sinceLook (D : Nat) (acts : List Act) : List Act :=
  (acts.reverse.takeWhile fun act => !act.looks D).reverse

@[simp] theorem sinceLook_nil (D : Nat) : sinceLook D [] = [] := rfl

theorem sinceLook_snoc (D : Nat) (acts : List Act) (act : Act) :
    sinceLook D (acts ++ [act]) = if act.looks D then [] else sinceLook D acts ++ [act] := by
  cases h : act.looks D <;> simp [sinceLook, h]

theorem sinceLook_suffix (D : Nat) (acts : List Act) : sinceLook D acts <:+ acts := by
  rw [← List.reverse_prefix, sinceLook, List.reverse_reverse]
  exact List.takeWhile_prefix _

namespace Frame

variable {su : Setup} {w : World} {self : Nat} {d : Drive}

theorem log_joined (u : World) (e : Drive) (how : TaskReport) : (joined u e how).1.log = u.log := by
  unfold joined
  split_ifs <;> rfl

/-- A look takes all that waits in the log. -/
theorem log_look (fin : Bool) : (runDrive su w self d (.look fin)).1.log = w.log.drain.2 := by
  have hl : (drainInto w d).1.log = w.log.drain.2 := rfl
  simp only [runDrive]
  generalize (drainInto w d).1 = u, (drainInto w d).2 = e at hl
  split
  · exact hl
  · split
    · exact hl
    · split
      · have hc : (u.cancel e.load).log = u.log := congrArg Core.log (World.core_cancel u e.load)
        exact hc.trans hl
      · split
        · exact (log_joined ..).trans hl
        · split
          · exact hl
          · exact hl

/-- Apart from its looks a driver takes something out of the log only after it had the load end. -/
theorem log_runDrive {phase : DrivePhase} (hp : ∀ fin, phase ≠ .look fin)
    (hs : phase = .stopping → w.log.waiting = []) :
    (runDrive su w self d phase).1.log.waiting = w.log.waiting := by
  cases phase with
  | look fin => exact absurd rfl (hp fin)
  | watch due =>
    simp only [runDrive]
    split
    · split_ifs
      · rfl
      · rw [log_joined]
        rfl
    · split_ifs <;> rfl
  | settling =>
    simp only [runDrive]
    split <;> rfl
  | stopping =>
    simp only [runDrive]
    split
    · rfl
    · rw [hs rfl]
      rfl
    · rfl

end Frame

variable {su : Setup} {c : Code} {p : String} {D L t₀ : Nat} {stale : List LogEntry}
variable {below : List Frame} {acts acts' : List Act} {w w₀ w' : World} {d : Drive}
variable {phase : DrivePhase} {a : Activity}

namespace Watch

/-- One step under any scheduler adds to the log what the load writes, and a look takes it all. -/
theorem unseen_step {m : Option Nat} (h : Watch su c p D L stale t₀ below acts w d phase a)
    (hu : w.log.waiting = said L (sinceLook D acts)) (hm : c.Mute)
    (hc : ∀ sc ∈ su.catalog, sc.obeys c = true) (hn : Next su (fun _ => False) w m w') :
    w'.log.waiting = said L (sinceLook D (acts ++ [⟨m, w, w'⟩])) := by
  rw [sinceLook_snoc]
  rcases h.stage.step hm hc hn with ⟨rfl, hr, rfl⟩ | ⟨v, rfl, hv, hvr, rfl⟩ | ⟨a', hb⟩
  · -- the driver moves, and the load does not
    obtain ⟨x, hx, hs, hret⟩ := h.driver
    have hcore := World.core_runTask su hx hs
    have hlog : (w.runTask su D).log = (Frame.runDrive su w D d phase).1.log := by
      rw [show (w.runTask su D).log = _ from congrArg Core.log hcore, Core.settle_log, hret]
      rfl
    have hsaid : said L [⟨some D, w, w.runTask su D⟩] = [] := by
      simp [said_singleton, h.stage.apart.symm]
    rw [hlog]
    simp only [Act.looks, Act.activity?, beq_self_eq_true, Bool.true_and, Option.bind_some, hx, Option.any_some, hs]
    cases phase with
    | look fin => rw [Frame.log_look]; rfl
    | stopping =>
      have hw : w.log.waiting = [] := by
        cases h.post with
        | stopping _ _ hw => exact hw
      rw [Frame.log_runDrive (by simp) fun _ => hw]
      simp [hsaid, hu]
    | _ =>
      rw [Frame.log_runDrive (by simp) (by simp)]
      simp [hsaid, hu]
  · -- the driver is given up
    have hlog : (v.cancelNow D).log = w.log := congrArg Core.log (World.core_drop (t := D) hv hvr)
    simp [Act.looks, hlog, hu, said_singleton]
  · obtain ⟨es, hl, hsaid, -⟩ := hb.log
    have hmover : m ≠ some D := by
      rintro rfl
      cases hn with
      | move hr => exact hb.idle hr
    have hlooks : (Act.mk m w w').looks D = false := by simp [Act.looks, hmover]
    have hes : said L [⟨m, w, w'⟩] = es := by
      rw [said_append] at hsaid
      exact List.append_cancel_left hsaid
    rw [hlooks, hl]
    simp [Log.appendAll, hu, hes]

/-- A run up to the return of the driver. -/
theorem unseen (h : Watch su c p D L stale t₀ below acts w₀ d phase a)
    (hu : w₀.log.waiting = said L (sinceLook D acts)) (hm : c.Mute)
    (hc : ∀ sc ∈ su.catalog, sc.obeys c = true) (hr : Run su (fun _ => False) w₀ acts' w)
    (hin : ∀ act ∈ acts', act.before.Driving D below) :
    w.log.waiting = said L (sinceLook D (acts ++ acts')) := by
  induction hr with
  | start => simpa using hu
  | @step acts' v v' m hr hn ih =>
    have hbefore : ∀ act ∈ acts', act.before.Driving D below := fun act ha => hin act (by simp [ha])
    rcases h.run hm hc hr hbefore with ⟨d, phase, a, hw⟩ | hl
    · rw [← List.append_assoc]
      exact hw.unseen_step (ih hbefore) hm hc hn
    · exact absurd (hin ⟨m, v, v'⟩ (by simp)) hl.not_driving

end Watch

/-- A load that panicked had written its first entry, and no more. -/
theorem LoadTask.panicked {s : Story} {k : Core} (h : LoadTask su c p s a k)
    (he : a.ended = some .panicked) : s.log = [⟨.testStart, p⟩] := by
  cases h with
  | live _ he' => simp [he] at he'
  | left _ _ he' => simp [he] at he'
  | cancelled _ he' => simp [he] at he'
  | @ended o _ he' ho =>
    have hrep : World.reportOf o = .panicked := (Option.some.inj (he.symm.trans he')).symm
    cases ho with
    | died => rfl
    | _ => simp [World.reportOf] at hrep

/-- A driver that is back is alone again. -/
theorem Came.alone {o : Outcome} (h : Came su c p D L stale t₀ below acts w a o) :
    Bystanders c (· = D) w.core := by
  intro i b hi hb
  by_cases hiL : i = L
  · subst hiL
    obtain rfl := Option.some.inj (h.stage.load.symm.trans hb)
    rw [h.stage.task.stack_nil h.returned.ended]
    trivial
  · exact h.stage.others i b (by simp [hi, hiL]) hb

theorem Run.tabled {may : Nat → Prop} (hr : Run su may w acts w') (h : w.Tabled) : w'.Tabled := by
  induction hr with
  | start => exact h
  | step _ hn ih => exact hn.tabled ih

theorem World.Tabled.launch (h : w.Tabled) (hl : w.launch su D below p = .ok w₀) : w₀.Tabled := by
  obtain ⟨-, hcore⟩ := World.core_launch hl
  have hlen : w₀.tasks.length = w.tasks.length + 1 := by
    have := congrArg (·.tasks.length) hcore
    simpa [Core.put, Core.spawn] using this
  intro i hi
  rw [show w₀.handles = w.handles from congrArg Core.handles hcore] at hi
  have := h i hi
  omega

theorem said_subset (h : acts' ⊆ acts) : said L acts' ⊆ said L acts := by
  intro e he
  obtain ⟨act, hact, hmem⟩ := List.mem_flatMap.1 he
  exact List.mem_flatMap.2 ⟨act, h hact, hmem⟩

/-- A driver that begins with an empty log and comes back with a report, for a path that was loaded,
rejected or given up, leaves an empty log. It comes back without one only if the loader panicked; then it
leaves what the load wrote since its last look. Either way the report of the next path is what was left and
what the load of that path wrote. -/
theorem path_leftover {o : Outcome} (hc : ∀ sc ∈ su.catalog, sc.obeys .isolated = true)
    (hw : w.log.waiting = []) (hD : D < w.tasks.length) (ht : w.Tabled)
    (hb : Bystanders .isolated (· = D) w.core) (hl : w.launch su D below p = .ok w₀)
    (hr : Run su (fun _ => False) w₀ acts w') (hin : ∀ act ∈ acts, act.before.Driving D below)
    (hback : w'.Back D below o) :
    ((∃ timedOut, o = .value (.report (.ofLogs p (said w.tasks.length acts) timedOut (su.timeAt w.now)
          (w'.now - w.now))) ∧ w'.log.waiting = []) ∨
      (o = .fault .loadPanicked ∧ su.loader.panicOn = some p ∧
        said w.tasks.length acts = [⟨.testStart, p⟩] ∧
        w'.log.waiting = said w.tasks.length (sinceLook D acts))) ∧
      ∀ (below' : List Frame) (q : String) (w₁ w'' : World) (acts' : List Act) (r : RunReport),
        w'.launch su D below' q = .ok w₁ → Run su (fun _ => False) w₁ acts' w'' →
        (∀ act ∈ acts', act.before.Driving D below') → w''.Back D below' (.value (.report r)) →
        r.logs = w'.log.waiting ++ said w'.tasks.length acts' := by
  obtain ⟨-, hcore⟩ := World.core_launch hl
  have hwatch := Watch.of_launch hcore hD hb ht
  have hlog : w₀.log = w.log := congrArg Core.log hcore
  have hunseen := hwatch.unseen (by rw [hlog, hw]; rfl) (Code.mute_writing _) hc hr hin
  obtain ⟨a, hcame⟩ := hwatch.back (Code.mute_writing _) hc hr hin hback
  rw [List.nil_append] at hunseen hcame
  rw [hw] at hcame
  have hleft : (∃ timedOut, o = .value (.report (.ofLogs p (said w.tasks.length acts) timedOut (su.timeAt w.now)
        (w'.now - w.now))) ∧ w'.log.waiting = []) ∨
      (o = .fault .loadPanicked ∧ su.loader.panicOn = some p ∧
        said w.tasks.length acts = [⟨.testStart, p⟩] ∧
        w'.log.waiting = said w.tasks.length (sinceLook D acts)) := by
    by_cases ho : o = .fault .loadPanicked
    · subst ho
      refine .inr ⟨rfl, ?_⟩
      cases hcame.returned with
      | broken he hp => exact ⟨hp, hcame.stage.told ▸ hcame.stage.task.panicked he, hunseen⟩
    · obtain ⟨timedOut, heq, -, hwait, -⟩ :=
        hcame.returned.all Code.unmarked_isolated hcame.stage (by simp) ho
      exact .inl ⟨timedOut, heq, hwait⟩
  refine ⟨hleft, fun below' q w₁ w'' acts' r hl' hr' hin' hback' => ?_⟩
  have hmark : endMarker q ∉ w'.log.waiting := by
    rcases hleft with ⟨-, -, hwait⟩ | ⟨-, -, hsaid, hwait⟩
    · simp [hwait]
    · rw [hwait]
      intro hm
      have hm' := said_subset (sinceLook_suffix D acts).subset hm
      simp [hsaid, endMarker] at hm'
  obtain ⟨-, hcore'⟩ := World.core_launch hl'
  have hD' : D < w'.tasks.length := by
    obtain ⟨x, hx, -⟩ := hback
    have := lt_of_getElem? hx
    rwa [World.length_core] at this
  have hwatch' := Watch.of_launch hcore' hD' hcame.alone (hr.tabled (ht.launch hl))
  obtain ⟨a', hcame'⟩ := hwatch'.back (Code.mute_writing _) hc hr' hin' hback'
  rw [List.nil_append] at hcame'
  obtain ⟨timedOut, heq, -⟩ := hcame'.returned.all Code.unmarked_isolated hcame'.stage hmark (by simp)
  obtain rfl : r = _ := by simpa using heq
  rfl

/-- A loader that panics over one of the scripts. -/
def Demo.treacherous : Setup := { setup with loader := ⟨0, some slowPath⟩ }

/-- The loader has panicked, and the driver is back without a report. -/
def Demo.betrayed : World := (launched (world [] []) slowPath).afterSteps treacherous 9

def Outcome.isFault : Outcome → Bool
  | .fault _ => true
  | _ => false

def Outcome.isReport : Outcome → Bool
  | .value (.report _) => true
  | _ => false

/-- The report of the next path begins with the entry that the load before it left. -/
theorem path_leftover_demo : Demo.betrayed.Back 0 [] (.fault .loadPanicked) ∧
    Demo.betrayed.log.waiting = [⟨.testStart, Demo.slowPath⟩] ∧
    ∃ r, ((Demo.launched Demo.betrayed Demo.failingPath).afterSteps Demo.treacherous 26).Back 0 []
        (.value (.report r)) ∧
      r.logs = ⟨.testStart, Demo.slowPath⟩ ::
        said 2 ((Demo.launched Demo.betrayed Demo.failingPath).actsOf Demo.treacherous 26) := by
  obtain ⟨o, hback, hfault⟩ := World.exists_back (D := 0) (q := Outcome.isFault) (w := Demo.betrayed)
    (by decide +kernel)
  obtain ⟨o', hback', hreport⟩ := World.exists_back (D := 0) (q := Outcome.isReport)
    (w := (Demo.launched Demo.betrayed Demo.failingPath).afterSteps Demo.treacherous 26) (by decide +kernel)
  obtain ⟨r, rfl⟩ : ∃ r, o' = .value (.report r) := by
    unfold Outcome.isReport at hreport
    split at hreport
    · exact ⟨_, rfl⟩
    · simp at hreport
  have hlaunch : (Demo.world [] []).launch Demo.treacherous 0 [] Demo.slowPath =
      .ok (Demo.launched (Demo.world [] []) Demo.slowPath) := rfl
  have hnext : Demo.betrayed.launch Demo.treacherous 0 [] Demo.failingPath =
      .ok (Demo.launched Demo.betrayed Demo.failingPath) := rfl
  have hrun : Run Demo.treacherous (fun _ => False) (Demo.launched (Demo.world [] []) Demo.slowPath)
      ((Demo.launched (Demo.world [] []) Demo.slowPath).actsOf Demo.treacherous 9) Demo.betrayed :=
    World.run_afterSteps 9 _
  obtain ⟨hleft, hreports⟩ := path_leftover (p := Demo.slowPath) (by decide +kernel) rfl (by decide)
    (Demo.tabled _ _) (Demo.alone _) hlaunch hrun (by decide +kernel) hback
  obtain rfl : o = .fault .loadPanicked := by
    rcases hleft with ⟨timedOut, rfl, -⟩ | ⟨h, -⟩
    · simp [Outcome.isFault] at hfault
    · exact h
  have hwait : Demo.betrayed.log.waiting = [⟨.testStart, Demo.slowPath⟩] := by decide +kernel
  have htasks : Demo.betrayed.tasks.length = 2 := by decide +kernel
  have hlogs := hreports [] _ _ _ _ r hnext (World.run_afterSteps 26 _) (by decide +kernel) hback'
  rw [hwait, htasks] at hlogs
  exact ⟨hback, hwait, r, hback', hlogs⟩

end PageTest
