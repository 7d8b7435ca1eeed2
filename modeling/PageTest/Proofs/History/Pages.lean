import PageTest.Proofs.History.Prior

/-! Steps on the page look neither at the clock nor at the trace: after a history they do the same, and their remarks
come after those of the history. -/

namespace PageTest.Scene

variable {h : Prior} {now : Nat}

theorem note_after (s : Scene) (h : Prior) (now : Nat) (who : Origin) (what : Remark) :
    (s.after h).note (now + h.time) who what = (s.note now who what).after h := by
  unfold note
  split_ifs
  · rfl
  · simp [after, TraceEntry.after]

theorem placed_after (s : Scene) (target : Option Nat) (e : Place) {act act' : Nat → Scene × Outcome}
    (ha : ∀ i, act' i = Prod.map (·.after h) id (act i)) :
    (s.after h).placed target e act' = Prod.map (·.after h) id (s.placed target e act) := by
  have hp : (s.after h).place target e = s.place target e := by cases e <;> rfl
  unfold placed
  rw [hp]
  cases s.place target e with
  | error e => rfl
  | ok i => exact ha i

theorem underParent_after (s : Scene) (target : Option Nat) (parent : Option Place)
    {act act' : Option Nat → Scene × Outcome} (ha : ∀ i, act' i = Prod.map (·.after h) id (act i)) :
    (s.after h).underParent target parent act' = Prod.map (·.after h) id (s.underParent target parent act) := by
  cases parent with
  | none => exact ha none
  | some e => exact placed_after s target e fun i => ha (some i)

theorem change_after (s : Scene) (r : Except PageError (Page Action)) :
    (s.after h).change r = Prod.map (·.after h) id (s.change r) := by
  cases r <;> rfl

theorem create_after (s : Scene) (r : Except PageError (Nat × Page Action)) :
    (s.after h).create r = Prod.map (·.after h) id (s.create r) := by
  cases r <;> rfl

/-! Handlers -/

section Handlers

variable {exec exec' : Scene → PageStep → Scene × Outcome}
  (hexec : ∀ s step, exec' (s.after h) step = Prod.map (·.after h) id (exec s step))

include hexec

theorem runSteps_after (now : Nat) (who : Origin) (body : List PageStep) (s : Scene) :
    runSteps (now + h.time) who exec' body (s.after h) =
      Prod.map (·.after h) id (runSteps now who exec body s) := by
  induction body generalizing s with
  | nil => rfl
  | cons step rest ih =>
    simp only [runSteps, hexec]
    rcases exec s step with ⟨s', r | f | p⟩
    · simp only [Prod.map_apply, id, note_after, ih]
    · simp only [Prod.map_apply, id, note_after, ih]
    · rfl

theorem runAction_after (now : Nat) (d : Dispatch) (s : Scene) (a : Action) :
    runAction (now + h.time) exec' d (s.after h) a = Prod.map (·.after h) id (runAction now exec d s a) := by
  cases a with
  | steps i body => simp only [runAction, note_after, runSteps_after hexec]
  | navigate => rfl
  | reveal field panel =>
    cases hv : s.page.value field
    all_goals
      simp only [runAction, page_after, hv]
      generalize s.page.setDisplay panel _ = r
      cases r <;> rfl

theorem runActions_after (now : Nat) (d : Dispatch) (as : List Action) (s : Scene) :
    runActions (now + h.time) exec' d as (s.after h) =
      Prod.map (·.after h) id (runActions now exec d as s) := by
  induction as generalizing s with
  | nil => rfl
  | cons a as ih =>
    simp only [runActions, runAction_after hexec]
    rcases runAction now exec d s a with ⟨s', _ | p⟩
    · exact ih s'
    · rfl

theorem dispatchWith_after (now : Nat) (s : Scene) (d : Dispatch) :
    dispatchWith (now + h.time) exec' (s.after h) d =
      Prod.map (·.after h) id (dispatchWith now exec s d) := by
  simp only [dispatchWith, page_after]
  cases s.page.dispatch d with
  | error e => rfl
  | ok r => exact runActions_after hexec now d r.2 { s with page := r.1 }

end Handlers

/-- A step that dispatches no event. -/
theorem plain_after (now depth : Nat) (target : Option Nat) (s : Scene) {step : PageStep}
    (hstep : ∀ e kind bubbles, step ≠ .dispatch e kind bubbles) :
    (s.after h).perform (now + h.time) depth target step =
      Prod.map (·.after h) id (s.perform now depth target step) := by
  unfold perform
  cases step with
  | dispatch e kind bubbles => exact absurd rfl (hstep e kind bubbles)
  | add => rfl
  | addChild e tag id => exact placed_after s target e fun i => create_after s _
  | addInput id parent => exact underParent_after s target parent fun i => create_after s _
  | addCheckbox id parent => exact underParent_after s target parent fun i => create_after s _
  | setDisplay e v => exact placed_after s target e fun i => change_after s _
  | setValue e v => exact placed_after s target e fun i => change_after s _
  | setChecked e v => exact placed_after s target e fun i => change_after s _
  | remove e => exact placed_after s target e fun i => change_after s _
  | display e => exact placed_after s target e fun i => rfl
  | value e => exact placed_after s target e fun i => rfl
  | checked e => exact placed_after s target e fun i => rfl
  | tag e => exact placed_after s target e fun i => rfl
  | showHandle e => exact placed_after s target e fun i => rfl
  | on e kind body => exact placed_after s target e fun i => rfl
  | listener i =>
    have hr : (s.after h).listenerReport i = s.listenerReport i := rfl
    simp only [hr]
    split_ifs <;> rfl
  | dropListener i =>
    simp only [show (s.after h).slots = s.slots from rfl]
    split <;> rfl
  | _ => rfl

/-- A step with all that handlers do about it. -/
theorem perform_after (now depth : Nat) (target : Option Nat) (s : Scene) (step : PageStep) :
    (s.after h).perform (now + h.time) depth target step =
      Prod.map (·.after h) id (s.perform now depth target step) := by
  induction depth generalizing target s step with
  | zero =>
    cases step with
    | dispatch e kind bubbles =>
      unfold perform
      exact placed_after s target e fun i => rfl
    | _ => exact plain_after now 0 target s nofun
  | succ depth ih =>
    cases step with
    | dispatch e kind bubbles =>
      unfold perform
      exact placed_after s target e fun i => dispatchWith_after (fun s step => ih (some i) s step) now s _
    | _ => exact plain_after now (depth + 1) target s nofun

/-! Inputs -/

theorem bubble_after (now depth : Nat) (s : Scene) (i : Nat) (kind : String) :
    (s.after h).bubble (now + h.time) depth i kind = Prod.map (·.after h) id (s.bubble now depth i kind) :=
  dispatchWith_after (fun s step => perform_after now depth (some i) s step) now s _

theorem setText_after (now depth : Nat) (s : Scene) (i : Nat) (text : String) :
    (s.after h).setText (now + h.time) depth i text = Prod.map (·.after h) id (s.setText now depth i text) := by
  simp only [setText, page_after]
  cases s.page.setValue i text with
  | error e => rfl
  | ok q => exact bubble_after now depth { s with page := q } i "input"

theorem clickCheckbox_after (now depth : Nat) (s : Scene) (i : Nat) :
    (s.after h).clickCheckbox (now + h.time) depth i = Prod.map (·.after h) id (s.clickCheckbox now depth i) := by
  simp only [clickCheckbox, page_after]
  cases s.page.checked i with
  | error e => rfl
  | ok b =>
    dsimp only
    cases s.page.setChecked i !b with
    | error e => rfl
    | ok q => exact bubble_after now depth { s with page := q } i "change"

end PageTest.Scene
