import PageTest.Proofs.Machine.Run

/-! What a step of a body can do, said once: each step changes at most one thing of the core. -/

namespace PageTest

namespace Step

/-- The step without leave to go on after its fault. -/
def bare : Step → Step
  | attempt s => s.bare
  | s => s

/-- Checks and waits, which become entries of the log. -/
def speaks : Step → Bool
  | ok .. | is .. | isnot .. | info .. | isDisplay .. | isValue .. | okChecked .. => true
  | waitCond .. | waitShown .. | waitLoad => true
  | attempt s => s.speaks
  | _ => false

/-- How a step polls, if it waits for a condition. -/
def waits? (su : Setup) : Step → Option WaitOptions
  | waitCond _ _ wait | waitShown _ _ wait => some (wait.getD (.ofDefaults su.driver.harness.wait))
  | _ => none

theorem speaks_of_waits? {su : Setup} {s : Step} {wait : WaitOptions} (h : s.waits? su = some wait) :
    s.speaks = true := by
  unfold waits? at h
  split at h
  · rfl
  · rfl
  · simp at h

/-- The test that a step registers. -/
def test? : Step → Option Test
  | addTest name body early hidden => some ⟨name, body, early, hidden⟩
  | addFunction f => some ⟨TestName.ofCallable f.path, [.info f.remark], none, true⟩
  | attempt s => s.test?
  | _ => none

end Step

namespace LogKind

/-- The kinds of entries that checks and waits become. -/
def isWord : LogKind → Bool
  | pass | fail | info => true
  | _ => false

end LogKind

namespace Check

theorem ok_isWord (cond : Bool) (msg : String) : (ok cond msg).kind.isWord := by cases cond <;> rfl

theorem is_isWord (a b : Operand) (msg : String) : (Check.is a b msg).kind.isWord := by
  unfold Check.is; split_ifs <;> rfl

theorem isnot_isWord (a b : Operand) (msg : String) : (isnot a b msg).kind.isWord := by
  unfold isnot; split_ifs <;> rfl

end Check

/-- What a body waits in while a step of its own takes time. -/
inductive Wait (su : Setup) : Step → Frame → Prop
  | sleep (ms : Nat) : Wait su (.sleep ms) (.sleep ms)
  | yield : Wait su .yield (.yield false)
  | poll {s : Step} {wait : WaitOptions} (c : Condition) (msg : String) :
      s.waits? su = some wait → Wait su s (.poll c msg wait 0)
  | load : Wait su .waitLoad (.waitLoad false none)

/-- The core after a step was begun, and what came of it. -/
inductive Effect (su : Setup) (w : World) : Step → Core → Begun → Prop
  | answer {s : Step} (o : Outcome) : s.test? = none → Effect su w s w.core (.over o)
  | page {s : Step} {sts : List (List Frame)} (o : Outcome) : s.test? = none →
      (∀ st ∈ sts, st = World.navigation) → Effect su w s (w.core.spawn sts) (.over o)
  | say {s : Step} {e : LogEntry} : s.speaks → s.test? = none → e.kind.isWord →
      Effect su w s { w.core with log := w.log.append e } (.over (.value .done))
  | append {kind msg : String} {k : LogKind} : LogKind.ofWord? kind = some k →
      Effect su w (.append kind msg) { w.core with log := w.log.append ⟨k, msg⟩ } (.over (.value .done))
  | drain : Effect su w .logs { w.core with log := w.log.drain.2 } (.over (.value (.entries w.log.waiting)))
  | register {s : Step} {t : Test} {g : Registry Test} : s.test? = some t →
      w.registry.register t = .ok g →
      Effect su w s { w.core with registry := g } (.over (.value .done))
  | refuse {s : Step} {t : Test} {e : RegistryError} : s.test? = some t →
      w.registry.register t = .error e → Effect su w s w.core (.over (.fault (.registry e)))
  | reset : Effect su w .reset { w.core with registry := .empty } (.over (.value .done))
  | wait {s : Step} {f : Frame} : s.test? = none → Wait su s f → Effect su w s w.core (.within f)
  | run {tests : List Test} {g : Registry Test} : w.registry.beginRun = .ok (tests, g) →
      Effect su w .run { w.core with registry := g } (.within (.pass none tests))
  | load (path : String) : Effect su w (.load path) w.core (.within (.load path .arriving))
  | spawn (body : List Step) (after : Nat) {st : List Frame} :
      (st = [.steps (.task w.handles.length) [] none body] ∨
        st = [.sleep after, .steps (.task w.handles.length) [] none body]) →
      Effect su w (.spawn body after)
        { w.core.spawn [st] with handles := w.handles ++ [some w.tasks.length] }
        (.over (.value (.count w.handles.length)))
  | join {i t : Nat} : w.handles[i]? = some (some t) →
      Effect su w (.join i) { w.core with handles := w.handles.set i none } (.within (.join t))
  | abort {i t : Nat} : w.handles[i]? = some (some t) →
      Effect su w (.abort i) { w.core with
          handles := w.handles.set i none
          tasks := w.core.tasks.modify t fun a =>
            if a.ended.isSome then a else { a with cancelled := true } }
        (.within (.join t))
  | drive {path : String} {v : World} {f : Frame} : w.drive su path = .ok (v, f) →
      Effect su w (.runPath path) v.core (.within f)
  | driveAll (paths : List String) :
      Effect su w (.runPaths paths) w.core (.within (.driveAll w.now paths []))

namespace World

variable {su : Setup}

theorem takeHandle_some {w v : World} {i t : Nat} (h : w.takeHandle i = (some t, v)) :
    w.handles[i]? = some (some t) ∧ v = { w with handles := w.handles.set i none } := by
  unfold takeHandle at h
  split at h
  next t' ht =>
    simp only [Prod.mk.injEq, Option.some.injEq] at h
    exact ⟨h.1 ▸ ht, h.2.symm⟩
  next => simp at h

theorem takeHandle_none {w v : World} {i : Nat} (h : w.takeHandle i = (none, v)) : v = w := by
  unfold takeHandle at h
  split at h
  next => simp at h
  next => exact (Prod.mk.inj h).2.symm

/-- Starting to load a path starts the task that loads it. -/
theorem drive_eq_ok {w v : World} {path : String} {f : Frame} (h : w.drive su path = .ok (v, f)) :
    su.overflows w.now su.driver.timeoutSecs = false ∧
    v.core = w.core.spawn [[.load path .arriving]] ∧
      f = .drive ⟨path, w.tasks.length, w.now, w.now + su.driver.timeoutSecs * 1000,
      []⟩ (.look false) := by
  unfold drive at h
  split_ifs at h with ho
  simp only [Except.ok.injEq, Prod.mk.injEq] at h
  obtain ⟨rfl, rfl⟩ := h
  exact ⟨by simpa using ho, core_start w _, rfl⟩

theorem effect_register {s : Step} {t : Test} (w : World) (h : s.test? = some t) :
    Effect su w s (w.register t).1.core (w.register t).2 := by
  unfold register
  cases hr : w.registry.register t with
  | ok g => exact .register h hr
  | error e => exact .refuse h hr

theorem effect_input {s : Step} (w : World) (found : List Nat) (e : Place)
    (act : Scene → Nat → Scene × Outcome)
    (h : s.test? = none) : Effect su w s (w.input found e act).1.core (w.input found e act).2 := by
  unfold input
  cases w.place found e with
  | error e => exact .answer _ h
  | ok i =>
    obtain ⟨sts, hs, hc⟩ := core_withScene w (act w.scene i).1
    exact hc ▸ .page _ h hs

theorem effect_inspect {β : Type} {s : Step} (w : World) (found : List Nat) (e : Place)
    (look : Page Action → Nat → Except PageError β) (entry : β → LogEntry) (hs : s.speaks)
    (h : s.test? = none) (he : ∀ b, (entry b).kind.isWord) :
    Effect su w s (w.inspect found e look entry).1.core (w.inspect found e look entry).2 := by
  unfold inspect
  cases (w.place found e).bind (look w.scene.page) with
  | error e => exact .answer _ h
  | ok b => exact .say hs h (he b)

theorem begin_effect (su : Setup) (found : List Nat) (w : World) (s : Step) :
    Effect su w s.bare (w.begin su found s).1.core (w.begin su found s).2 := by
  fun_induction World.begin su found w s
  case case1 s sc o _ =>
    obtain ⟨sts, hs, hc⟩ := core_withScene w sc
    exact hc ▸ .page o rfl hs
  case case2 => exact .answer _ rfl
  case case3 cond msg => exact .say rfl rfl (Check.ok_isWord cond msg)
  case case4 a b msg => exact .say rfl rfl (Check.is_isWord a b msg)
  case case5 a b msg => exact .say rfl rfl (Check.isnot_isWord a b msg)
  case case6 => exact .say rfl rfl rfl
  case case7 e expected msg =>
    exact effect_inspect w found e _ _ rfl rfl fun _ => Check.is_isWord _ _ _
  case case8 e expected msg =>
    exact effect_inspect w found e _ _ rfl rfl fun _ => Check.is_isWord _ _ _
  case case9 e wanted msg => exact effect_inspect w found e _ _ rfl rfl fun _ => Check.ok_isWord _ _
  case case10 kind msg k hk => exact .append hk
  case case11 => exact .answer _ rfl
  case case12 es log h =>
    obtain ⟨rfl, rfl⟩ := Prod.mk.inj h
    exact .drain
  case case13 => exact .answer _ rfl
  case case14 e text => exact effect_input w found e _ rfl
  case case15 e => exact effect_input w found e _ rfl
  case case16 e => exact effect_input w found e _ rfl
  case case17 => exact effect_register w rfl
  case case18 => exact effect_register w rfl
  case case19 => exact .reset
  case case20 | case21 | case22 | case23 | case24 => exact .answer _ rfl
  case case25 ms => exact .wait rfl (.sleep ms)
  case case26 => exact .wait rfl .yield
  case case27 => exact .wait rfl (.poll _ _ rfl)
  case case28 => exact .answer _ rfl
  case case29 => exact .wait rfl (.poll _ _ rfl)
  case case30 => exact .wait rfl .load
  case case31 => exact .answer _ rfl
  case case32 tests g h => exact .run h
  case case33 path => exact .load path
  case case34 body after =>
    rw [core_spawn]
    refine .spawn body after ?_
    split_ifs
    · exact .inl rfl
    · exact .inr rfl
  case case35 i t v h =>
    obtain ⟨ht, rfl⟩ := takeHandle_some h
    exact .join ht
  case case36 i v h =>
    obtain rfl := takeHandle_none h
    exact .answer _ rfl
  case case37 i t v h =>
    obtain ⟨ht, rfl⟩ := takeHandle_some h
    rw [core_cancel]
    exact .abort ht
  case case38 i v h =>
    obtain rfl := takeHandle_none h
    exact .answer _ rfl
  case case39 => exact .answer _ rfl
  case case40 path v f h => exact .drive h
  case case41 paths => exact .driveAll paths
  case case42 | case43 => exact .answer _ rfl
  case case44 s ih => exact ih

end World

end PageTest
