import PageTest.Proofs.Drive.Launch
import PageTest.Proofs.Load.Enrolled

/-! A load that a driver watches takes the tests that its script registers, when nobody else touches
the registry. -/

namespace PageTest

/-- The load in a task is on its way to take these tests, or has taken them. -/
structure OnRoll (p : String) (tests : List Test) (s : Story) (reg : List Test)
    (a : Activity) : Prop where
  taken : s.verdict.isSome = true → s.taken = tests
  enrolled : ∀ inner phase, a.stack = inner ++ [.load p phase] →
    Enrolled tests s reg phase inner a.returned

theorem Story.verdict_observe (s : Story) {phase : LoadPhase} (h : ∀ k, phase ≠ .running k)
    (inner : List Frame) (ret : Option Outcome) (tests : List Test) (es : List LogEntry) :
    (s.observe phase inner ret tests es).verdict = s.verdict := by
  cases phase with
  | running k => exact absurd rfl (h k)
  | registering k => cases inner <;> cases ret <;> rfl
  | _ => rfl

theorem Doing.verdict {su : Setup} {c : Code} {p : String} {s : Story} {phase : LoadPhase}
    {inner : List Frame}
    {ret : Option Outcome} (h : Doing su c p s phase inner ret) (hk : ∀ k, phase ≠ .running k) :
    s.verdict = none := by
  cases h with
  | registering ho => exact ho.verdict
  | registered ho => exact ho.verdict
  | passing => exact absurd rfl (hk _)
  | testing => exact absurd rfl (hk _)
  | passed => exact absurd rfl (hk _)
  | closing => exact absurd rfl (hk _)
  | refused => exact absurd rfl (hk _)
  | _ => rfl

namespace OnRoll

variable {su : Setup} {c : Code} {p : String} {tests : List Test} {s : Story} {a a' : Activity}
variable {L : Nat} {w : World}

theorem start (reg : List Test) : OnRoll p tests .blank reg (.fresh [.load p .arriving]) where
  taken h := by simp [Story.blank] at h
  enrolled inner phase hs := by
    have hs' : [] ++ [Frame.load p .arriving] = inner ++ [.load p phase] := hs
    obtain ⟨-, hl⟩ := List.append_inj' hs' rfl
    obtain ⟨-, rfl⟩ : p = p ∧ LoadPhase.arriving = phase := by simpa using hl
    trivial

/-- The load was left alone, or given up. -/
theorem other {reg reg' : List Test} (h : OnRoll p tests s reg a) (hr : reg' = reg)
    (ha : (a'.stack = a.stack ∧ a'.returned = a.returned) ∨ a'.stack = []) :
    OnRoll p tests s reg' a' where
  taken := h.taken
  enrolled inner phase hs := by
    rcases ha with ⟨h1, h2⟩ | h1
    · rw [hr, h2]
      exact h.enrolled inner phase (h1.symm.trans hs)
    · simp [h1] at hs

/-- The load moves. -/
theorem move (h : OnRoll p tests s w.registry.tests a) (ht : LoadTask su c p s a w.core)
    (ha : w.core.tasks[L]? = some a) (he : a.ended = none) (hc : c.Steady)
    (hsc : ∀ sc, su.catalog.script? p = some sc → sc.tests = tests)
    (ha' : (w.runTask su L).core.tasks[L]? = some a') :
    OnRoll p tests (s.see ⟨some L, w, w.runTask su L⟩) (w.runTask su L).registry.tests a' := by
  cases ht with
  | @live phase inner hs _ hd hg =>
    obtain ⟨f, rest, hf⟩ : ∃ f rest, inner ++ [.load p phase] = f :: rest :=
      List.exists_cons_of_ne_nil (by simp)
    have hcore := World.core_runTask su ha (hs.trans hf)
    have hen := h.enrolled inner phase hs
    have hsee := Story.see_load s (w.runTask su L) ha hs (by simp)
    set es := (Act.mk (some L) w (w.runTask su L)).entries
    have hp := hd.enrolled L es hen hg hc hsc hf
    obtain ⟨b, hb, -⟩ := (f.apart_act su w L a.returned).tasks L a ha
    rcases hact : f.act su w L a.returned with ⟨v, m⟩
    rw [hact] at hp hb hcore
    obtain rfl : b.moved rest m = a' := by
      rw [hcore, Core.settle_self hb] at ha'
      exact Option.some.inj ha'
    have hreg : (w.runTask su L).registry = v.registry :=
      (congrArg Core.registry hcore).trans (Core.settle_registry ..)
    refine ⟨fun hv => ?_, fun inner' phase' hs' => ?_⟩
    · rw [hsee] at hv ⊢
      by_cases hk : ∃ k, phase = .running k
      · obtain ⟨k, rfl⟩ := hk
        exact (s.taken_running ..).trans hen
      · have hk' : ∀ k, phase ≠ .running k := fun k hk' => hk ⟨k, hk'⟩
        rw [s.verdict_observe hk', hd.verdict hk'] at hv
        simp at hv
    · by_cases hw : m.waits = true ∧ b.cancelled = true
      · rw [Activity.moved_cancelled hw] at hs'
        simp [Activity.finish] at hs'
      · rw [Activity.moved_onto hw] at hs' ⊢
        cases hp with
        | on phase₁ inner₁ ret₁ honto hen₁ =>
          rw [honto] at hs' ⊢
          obtain ⟨rfl, hl⟩ := List.append_inj' hs' rfl
          obtain ⟨-, rfl⟩ : p = p ∧ phase₁ = phase' := by simpa using hl
          rw [hsee, hreg]
          exact hen₁
        | off hrest =>
          rw [hrest] at hs'
          simp [Move.onto, Activity.put] at hs'
  | left hs =>
    have hcore := World.core_runTask_nil su ha hs
    rw [Story.see_none ha (by rw [hs]; rfl)]
    refine h.other (by rw [show (w.runTask su L).registry = w.registry from congrArg Core.registry hcore]) (.inr ?_)
    rw [hcore] at ha'
    dsimp only at ha'
    split_ifs at ha'
    · obtain rfl := Option.some.inj (ha.symm.trans ha')
      exact hs
    · rw [List.getElem?_modify, ha] at ha'
      obtain rfl : a.finish _ = a' := by simpa using ha'
      rfl
  | ended _ h _ => simp [he] at h
  | cancelled _ h _ => simp [he] at h

end OnRoll

namespace Watch

variable {su : Setup} {c : Code} {p : String} {D L t₀ : Nat} {stale : List LogEntry}
variable {below : List Frame} {acts acts' : List Act} {w w₀ w' : World} {d : Drive}
variable {phase : DrivePhase} {a a' : Activity} {tests : List Test}

theorem roll_step {m : Option Nat} (h : Watch su c p D L stale t₀ below acts w d phase a)
    (hr : OnRoll p tests (story L acts) w.registry.tests a) (hm : c.Mute) (hs : c.Steady)
    (hsc : ∀ sc, su.catalog.script? p = some sc → sc.tests = tests)
    (hn : Next su (fun _ => False) w m w')
    (ha' : w'.core.tasks[L]? = some a') :
    OnRoll p tests (story L (acts ++ [⟨m, w, w'⟩])) w'.registry.tests a' := by
  have hload := h.stage.load
  have other (hmL : m ≠ some L) (hreg : w'.core.registry = w.core.registry)
      (hstack : (a'.stack = a.stack ∧ a'.returned = a.returned) ∨ a'.stack = []) :
      OnRoll p tests (story L (acts ++ [⟨m, w, w'⟩])) w'.registry.tests a' := by
    rw [story_snoc, if_neg hmL]
    exact hr.other (by rw [show w'.registry = w.registry from hreg]) hstack
  rcases hn.split h.stage.others fun t b f rest ht hb hst =>
    hm.no_loads (hst ▸ h.stage.others t b ht hb) with
    ⟨t, rfl | rfl, rfl, hrun, rfl⟩ | ⟨t, v, rfl | rfl, rfl, hrun, hd, hv, hvr, rfl⟩ | hq
  · obtain ⟨x, hx, hxs, hret⟩ := h.driver
    have hcore := World.core_runTask su hx hxs
    obtain ⟨l, ts, hdrive, -⟩ := runDrive_core su w t d phase
    obtain ⟨b, hb, hu⟩ := World.runTask_other su h.stage.apart hload
    obtain rfl := Option.some.inj (ha'.symm.trans hb)
    refine other (by simpa using h.stage.apart.symm) ?_ (.inl ⟨hu.stack, hu.returned⟩)
    rw [hcore, Core.settle_registry, hret,
      show ((Frame.drive d phase).act su w t none).1.core = { w.core with log := l, tasks := ts } from hdrive]
  · rw [story_snoc, if_pos rfl]
    exact hr.move h.stage.task hload (h.stage.turn hrun).1 hs hsc ha'
  · have hcore := World.core_drop (t := t) hv hvr
    refine other (by simp) (by rw [hcore]; rfl) (.inl ?_)
    rw [hcore] at ha'
    simp only [Core.cancelNow, List.getElem?_modify, h.stage.apart.symm, if_false] at ha'
    obtain rfl := Option.some.inj (hload.symm.trans (by simpa using ha'))
    exact ⟨rfl, rfl⟩
  · have hcore := World.core_drop (t := t) hv hvr
    refine other (by simp) (by rw [hcore]; rfl) (.inr ?_)
    rw [hcore] at ha'
    simp only [Core.cancelNow, List.getElem?_modify, hload] at ha'
    obtain rfl : a.finish .cancelled = a' := by simpa using ha'
    rfl
  · obtain ⟨b, hb, hu⟩ := hq.old L a (.inr rfl) hload
    obtain rfl := Option.some.inj (ha'.symm.trans hb)
    exact other (fun he => hq.mover L he (.inr rfl))
      (hq.deeds.registry c.runs_task hs.task_resets (.inl hs.task_registers))
      (.inl ⟨hu.stack, hu.returned⟩)

/-- The tests of a load, up to the return of its driver. -/
theorem roll (h : Watch su c p D L stale t₀ below acts w₀ d phase a)
    (hr : OnRoll p tests (story L acts) w₀.registry.tests a) (hm : c.Mute) (hs : c.Steady)
    (hc : ∀ sc ∈ su.catalog, sc.obeys c = true)
    (hsc : ∀ sc, su.catalog.script? p = some sc → sc.tests = tests)
    (hrun : Run su (fun _ => False) w₀ acts' w) (hin : ∀ act ∈ acts', act.before.Driving D below)
    (ha' : w.core.tasks[L]? = some a') :
    OnRoll p tests (story L (acts ++ acts')) w.registry.tests a' := by
  induction hrun generalizing a' with
  | start =>
    obtain rfl := Option.some.inj (h.stage.load.symm.trans ha')
    simpa using hr
  | @step acts' w w' m hrun hn ih =>
    have hin' : ∀ act ∈ acts', act.before.Driving D below := fun act ha => hin act (by simp [ha])
    rcases h.run hm hc hrun hin' with ⟨d₁, phase₁, b, hw⟩ | hl
    · rw [← List.append_assoc]
      exact hw.roll_step (ih hin' hw.stage.load) hm hs hsc hn ha'
    · exact absurd (hin ⟨m, w, w'⟩ (by simp)) hl.not_driving

end Watch

end PageTest
