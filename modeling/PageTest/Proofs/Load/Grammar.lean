import PageTest.Proofs.Load.Pass

/-! What a load writes from its start to its end. -/

namespace PageTest

/-- All that a load writes, in order, told by its story. -/
inductive Block (su : Setup) (p : String) (s : Story) : Prop
  | rejected : Frame.startsWith p su.driver.harness.pathStart = false →
      s.log = [⟨.fail, Frame.unsupportedPath p⟩] → Block su p s
  | unknown : Frame.startsWith p su.driver.harness.pathStart = true → su.catalog.script? p = none →
      s.log = [⟨.testStart, p⟩, ⟨.fail, Frame.noSuchScript p⟩] → Block su p s
  | unregistered {o : Outcome} {reason : String} :
      Frame.startsWith p su.driver.harness.pathStart = true →
      (∃ sc, su.catalog.script? p = some sc) → s.ran = [] → s.registration = some o →
      Story.loadError p o = some reason →
      s.log = ⟨.testStart, p⟩ :: s.registered ++ [⟨.fail, reason⟩] → Block su p s
  | passed {st : RunState} : Frame.startsWith p su.driver.harness.pathStart = true →
      (∃ sc, su.catalog.script? p = some sc) → s.Loaded → s.Concluded st →
      s.log = ⟨.testStart, p⟩ :: s.registered ++ s.ran.reverse.flatMap Ran.log ++ [⟨.testEnd, p⟩] →
        Block su p s

/-- The script and the bodies have written what their code lets them write. -/
def Story.Voiced (c : Code) (s : Story) : Prop :=
  (∀ e ∈ s.registered, ∃ k, c.Voices (.within k) e.kind) ∧
  ∀ r ∈ s.ran, ∀ e ∈ r.said, ∃ k, c.Voices (.within k) e.kind

/-- One story is how another one begins. -/
structure Story.Begins (s s' : Story) : Prop where
  log : s.log <+: s'.log
  registered : s.registered <+: s'.registered
  registration : ∀ o, s.registration = some o → s'.registration = some o
  ran : s.ran.reverse.map (·.test) <+: s'.ran.reverse.map (·.test)

variable {su : Setup} {c : Code} {p : String} {s : Story} {o : Outcome} {k : Nat}

theorem Story.Opened.voiced (h : s.Opened su c k p) : s.Voiced c :=
  ⟨fun e he => ⟨_, h.registered e he⟩, fun r hr e he => ⟨_, h.said r hr e he⟩⟩

theorem Over.voices (h : Over su c p s o) : s.Voiced c := by
  cases h with
  | rejected => simp [Story.Voiced, Story.blank]
  | unknown => simp [Story.Voiced, Story.begun, Story.blank]
  | died => simp [Story.Voiced, Story.begun, Story.blank]
  | unregistered h => exact h.voiced
  | ended h => exact h.voiced
  | refused h => exact h.voiced

theorem Doing.voiced {phase : LoadPhase} {inner : List Frame} {ret : Option Outcome}
    (h : Doing su c p s phase inner ret) : s.Voiced c := by
  cases h with
  | registering ho => exact ho.voiced
  | registered ho => exact ho.voiced
  | passing ho => exact ho.voiced
  | testing ho => exact ho.voiced
  | passed ho => exact ho.voiced
  | closing ho => exact ho.voiced
  | refused ho => exact ho.voiced
  | _ => simp [Story.Voiced, Story.begun, Story.blank]

theorem Story.Concluded.congr {s' : Story} {st : RunState} (h : s.Concluded st)
    (ht : s'.taken = s.taken) (hr : s'.ran = s.ran) : s'.Concluded st := by
  cases h with
  | completed h1 h2 => exact .completed (by rw [ht, hr]; exact h1) (by rw [hr]; exact h2)
  | aborted h1 h2 h3 h4 => exact .aborted (hr.trans h1) (by rw [ht, hr]; exact h2) h3 h4

/-- A load that is over has written all of it. -/
theorem Over.block (h : Over su c p s o) (hp : su.loader.panicOn ≠ some p)
    (hr : c.body.runs = false) : Block su p s := by
  cases h with
  | rejected hs => exact .rejected hs rfl
  | unknown hs hf => exact .unknown hs hf rfl
  | died hp' => exact absurd hp' hp
  | refused _ _ _ hr' => simp [hr] at hr'
  | unregistered ho hran ho' he =>
    refine .unregistered ho.supported ho.found hran ho' he ?_
    simp [Story.log, ho.opening, hran]
  | ended ho hl hc =>
    refine .passed ho.supported ho.found hl (hc.congr rfl rfl) ?_
    simp [Story.log, ho.opening]

namespace Story

theorem Begins.refl (s : Story) : s.Begins s :=
  ⟨List.prefix_rfl, List.prefix_rfl, fun _ => id, List.prefix_rfl⟩

theorem Begins.trans {s' s'' : Story} (h : s.Begins s') (h' : s'.Begins s'') : s.Begins s'' :=
  ⟨h.log.trans h'.log, h.registered.trans h'.registered,
    fun o ho => h'.registration o (h.registration o ho), h.ran.trans h'.ran⟩

/-- A story goes on. What a script came to is told once. -/
theorem begins_observe {phase : LoadPhase} {inner : List Frame} {ret : Option Outcome}
    {tests : List Test} {es : List LogEntry}
    (hlog : (s.observe phase inner ret tests es).log = s.log ++ es)
    (hr : ∀ k, phase = .registering k → inner = [] → ret.isSome → s.registration = none) :
    s.Begins (s.observe phase inner ret tests es) := by
  have hgrows : s.log <+: (s.observe phase inner ret tests es).log := hlog ▸ List.prefix_append _ _
  unfold observe at hgrows ⊢
  split at hgrows
  case h_3 => exact ⟨hgrows, List.prefix_rfl, fun o ho => by simp [hr _ rfl rfl rfl] at ho, List.prefix_rfl⟩
  case h_4 => exact ⟨hgrows, List.prefix_append _ _, fun _ => id, List.prefix_rfl⟩
  case h_5 =>
    refine ⟨hgrows, ?_, ?_, ?_⟩ <;> unfold hear <;> cases hran : s.ran <;> simp [hran]
  case h_6 => exact ⟨hgrows, List.prefix_rfl, fun _ => id, by simp⟩
  case h_7 =>
    refine ⟨hgrows, ?_, ?_, ?_⟩ <;> unfold conclude <;> cases hran : s.ran <;> simp [hran]
  all_goals exact ⟨hgrows, List.prefix_rfl, fun _ => id, List.prefix_rfl⟩

end Story

end PageTest
