import PageTest.Proofs.Page.Edits
import PageTest.Scene

/-! Whatever is done to a page, by a step or by the handlers of an event that it dispatches, is a
series of single changes. What every change keeps, a handler finds kept in the middle of a dispatch. -/

namespace PageTest

namespace Page

variable {α : Type}

/-- A single change of a page. Questions change nothing, and neither does what the page refuses. -/
inductive Change (p : Page α) : Page α → Prop
  | create {parent : Option Nat} {tag id : String} {checkbox : Bool} {h : Nat} {q : Page α} :
      p.insert parent tag id checkbox = .ok (h, q) → Change p q
  | display {h : Nat} {v : String} {q : Page α} : p.setDisplay h v = .ok q → Change p q
  | value {h : Nat} {v : String} {q : Page α} : p.setValue h v = .ok q → Change p q
  | checked {h : Nat} {b : Bool} {q : Page α} : p.setChecked h b = .ok q → Change p q
  | remove {h : Nat} {q : Page α} : p.remove h = .ok q → Change p q
  | handler (h : Nat) (kind : String) (action : α) : Change p (p.addHandler h kind action)
  | record {d : Dispatch} {q : Page α} {actions : List α} : p.dispatch d = .ok (q, actions) → Change p q
  | listen (target : SignalTarget) (event : String) : Change p (p.listen target event).2
  | fire (target : SignalTarget) (event : String) : Change p (p.fire target event).2
  | unlisten (i : Nat) : Change p (p.dropListener i)

/-- Any number of changes. -/
abbrev Changes : Page α → Page α → Prop := Relation.ReflTransGen Change

theorem Change.changes {p q : Page α} (h : p.Change q) : p.Changes q := .single h

/-! Changes are edits without their particulars. -/

variable {p q : Page α} {es : List (Edit α)}

theorem change_of_edit {e : Edit α} (h : p.edit e = .ok q) : p.Change q := by
  cases e with
  | create parent tag id checkbox =>
    obtain ⟨⟨i, q⟩, hi, rfl⟩ := map_eq_ok h
    exact .create hi
  | display i v => exact .display h
  | value i v => exact .value h
  | checked i b => exact .checked h
  | remove i => exact .remove h
  | handler i kind action =>
    obtain rfl := Except.ok.inj h
    exact .handler i kind action
  | record d =>
    obtain ⟨⟨q, actions⟩, hd, rfl⟩ := map_eq_ok h
    exact .record hd
  | listen target event =>
    obtain rfl := Except.ok.inj h
    exact .listen target event
  | fire target event =>
    obtain rfl := Except.ok.inj h
    exact .fire target event
  | unlisten i =>
    obtain rfl := Except.ok.inj h
    exact .unlisten i

theorem Change.exists_edit (h : p.Change q) : ∃ e, p.edit e = .ok q := by
  cases h with
  | @create parent tag id checkbox i _ hi => exact ⟨.create parent tag id checkbox, by simp [edit, hi, Except.map]⟩
  | @display i v _ hq => exact ⟨.display i v, hq⟩
  | @value i v _ hq => exact ⟨.value i v, hq⟩
  | @checked i b _ hq => exact ⟨.checked i b, hq⟩
  | @remove i _ hq => exact ⟨.remove i, hq⟩
  | handler i kind action => exact ⟨.handler i kind action, rfl⟩
  | @record d _ actions hd => exact ⟨.record d, by simp [edit, hd, Except.map]⟩
  | listen target event => exact ⟨.listen target event, rfl⟩
  | fire target event => exact ⟨.fire target event, rfl⟩
  | unlisten i => exact ⟨.unlisten i, rfl⟩

theorem Edited.changes (h : p.Edited es q) : p.Changes q := by
  induction h with
  | start => exact .refl
  | step _ he ih => exact ih.tail (change_of_edit he)

theorem Changes.exists_edited (h : p.Changes q) : ∃ es, p.Edited es q := by
  induction h with
  | refl => exact ⟨[], .start⟩
  | tail _ hc ih =>
    obtain ⟨es, hes⟩ := ih
    obtain ⟨e, he⟩ := hc.exists_edit
    exact ⟨es ++ [e], hes.step he⟩

end Page

namespace PageStep

/-- The step dispatches an event, so that handlers run. -/
def dispatches : PageStep → Bool
  | dispatch .. => true
  | _ => false

end PageStep

namespace Scene

open Page

variable {exec : Scene → PageStep → Scene × Outcome} {s : Scene}

@[simp] theorem page_note (s : Scene) (now : Nat) (who : Origin) (what : Remark) :
    (s.note now who what).page = s.page := by
  unfold note
  split_ifs <;> rfl

/-! Single steps -/

/-- What a step does that no handler answers to: one edit at most, and nothing is traced. -/
structure Plain (s s' : Scene) : Prop where
  page : s'.page = s.page ∨ ∃ e, Edit.event? e = none ∧ s.page.edit e = .ok s'.page
  trace : s'.trace = s.trace

namespace Plain

theorem same {s' : Scene} (hp : s'.page = s.page) (ht : s'.trace = s.trace) : Plain s s' := ⟨.inl hp, ht⟩

theorem edit {s' : Scene} {e : Edit Action} (hn : e.event? = none) (he : s.page.edit e = .ok s'.page)
    (ht : s'.trace = s.trace) : Plain s s' := ⟨.inr ⟨e, hn, he⟩, ht⟩

theorem placed {target : Option Nat} {e : Place} {act : Nat → Scene × Outcome} (h : ∀ i, Plain s (act i).1) :
    Plain s (s.placed target e act).1 := by
  unfold Scene.placed
  cases s.place target e with
  | error e => exact .same rfl rfl
  | ok i => exact h i

theorem change {e : Edit Action} (hn : e.event? = none) : Plain s (s.change (s.page.edit e)).1 := by
  cases hr : s.page.edit e with
  | error err => exact .same rfl rfl
  | ok q => exact .edit hn hr rfl

theorem create (parent : Option Nat) (tag id : String) (checkbox : Bool) :
    Plain s (s.create (s.page.insert parent tag id checkbox)).1 := by
  cases hr : s.page.insert parent tag id checkbox with
  | error e => exact .same rfl rfl
  | ok r => exact .edit (e := .create parent tag id checkbox) rfl (by simp [Page.edit, hr, Except.map, Scene.create]) rfl

theorem underParent {target : Option Nat} {parent : Option Place} {act : Option Nat → Scene × Outcome}
    (h : ∀ i, Plain s (act i).1) : Plain s (s.underParent target parent act).1 := by
  cases parent with
  | none => exact h none
  | some e => exact placed fun i => h (some i)

theorem changes {s' : Scene} (h : Plain s s') : s.page.Changes s'.page := by
  rcases h.page with hp | ⟨e, -, he⟩
  · rw [hp]
  · exact (change_of_edit he).changes

end Plain

theorem plain_perform (now depth : Nat) (target : Option Nat) {step : PageStep} (h : step.dispatches = false) :
    Plain s (s.perform now depth target step).1 := by
  unfold perform
  cases step with
  | dispatch => simp [PageStep.dispatches] at h
  | add tag id => exact .create none tag id false
  | addChild => exact .placed fun h => .create (some h) _ _ _
  | addInput => exact .underParent fun h => .create h _ _ _
  | addCheckbox => exact .underParent fun h => .create h _ _ _
  | setDisplay e v => exact .placed fun h => .change (e := .display h v) rfl
  | setValue e v => exact .placed fun h => .change (e := .value h v) rfl
  | setChecked e v => exact .placed fun h => .change (e := .checked h v) rfl
  | remove => exact .placed fun h => .change (e := .remove h) rfl
  | display | value | checked | tag | showHandle => exact .placed fun _ => .same rfl rfl
  | on e kind body => exact .placed fun h => .edit (e := .handler h kind _) rfl rfl rfl
  | fire t event => exact .edit (e := .fire t event) rfl rfl rfl
  | once t event => exact .edit (e := .listen t event) rfl rfl rfl
  | listener i =>
    dsimp only
    split_ifs <;> exact .same rfl rfl
  | dropListener i =>
    dsimp only
    split
    next l hl => exact .edit (e := .unlisten l) rfl rfl rfl
    next => exact .same rfl rfl
  | query | dispatched | panic => exact .same rfl rfl

/-! Handlers. What takes their steps is given, and changes the page as it should. -/

section Handlers

variable (h : ∀ (s : Scene) (step : PageStep), s.page.Changes (exec s step).1.page)

include h

theorem changes_runSteps (now : Nat) (who : Origin) (steps : List PageStep) (s : Scene) :
    s.page.Changes (runSteps now who exec steps s).1.page := by
  induction steps generalizing s with
  | nil => exact .refl
  | cons step rest ih =>
    have hstep := h s step
    rcases he : exec s step with ⟨v, o⟩
    rw [he] at hstep
    simp only [runSteps, he]
    cases o with
    | value r => exact hstep.trans (page_note v .. ▸ ih (v.note now who (.returned step.name r)))
    | fault f => exact hstep.trans (page_note v .. ▸ ih (v.note now who (.failed step.name f)))
    | panic p => exact hstep

theorem changes_runAction (now : Nat) (d : Dispatch) (s : Scene) (a : Action) :
    s.page.Changes (runAction now exec d s a).1.page := by
  cases a with
  | steps i body =>
    have hs := changes_runSteps h now (.handler i) body (s.note now (.handler i) (.event d))
    rwa [page_note] at hs
  | reveal field panel =>
    unfold runAction
    dsimp only
    split
    next page hq => exact (Change.display hq).changes
    next => exact .refl
  | navigate => exact .refl

theorem changes_runActions (now : Nat) (d : Dispatch) (actions : List Action) (s : Scene) :
    s.page.Changes (runActions now exec d actions s).1.page := by
  induction actions generalizing s with
  | nil => exact .refl
  | cons a rest ih =>
    have ha := changes_runAction h now d s a
    rcases he : runAction now exec d s a with ⟨v, o⟩
    rw [he] at ha
    simp only [runActions, he]
    cases o with
    | none => exact ha.trans (ih v)
    | some p => exact ha

theorem changes_dispatchWith (now : Nat) (s : Scene) (d : Dispatch) :
    s.page.Changes (dispatchWith now exec s d).1.page := by
  unfold dispatchWith
  cases hd : s.page.dispatch d with
  | error e => exact .refl
  | ok r => exact (Change.record hd).changes.trans (changes_runActions h now d r.2 { s with page := r.1 })

end Handlers

/-- A step with all that handlers do about it, however deep events are nested. -/
theorem changes_perform (now depth : Nat) (target : Option Nat) (s : Scene) (step : PageStep) :
    s.page.Changes (s.perform now depth target step).1.page := by
  induction depth generalizing target s step with
  | zero =>
    cases step with
    | dispatch e kind bubbles =>
      unfold perform
      dsimp only
      unfold placed
      cases s.place target e <;> exact .refl
    | _ => exact (plain_perform now 0 target rfl).changes
  | succ depth ih =>
    cases step with
    | dispatch e kind bubbles =>
      unfold perform
      dsimp only
      unfold placed
      cases s.place target e with
      | error e => exact .refl
      | ok h => exact changes_dispatchWith (fun s step => ih (some h) s step) now s _
    | _ => exact (plain_perform now (depth + 1) target rfl).changes

/-! Histories -/

/-- A step with all that handlers do about it is more of the same. -/
theorem edited_perform {es : List (Page.Edit Action)} {s : Scene} (h : Page.empty.Edited es s.page)
    (now depth : Nat) (target : Option Nat) (step : PageStep) :
    ∃ es', Page.empty.Edited (es ++ es') (s.perform now depth target step).1.page := by
  obtain ⟨es', hes'⟩ := (changes_perform now depth target s step).exists_edited
  exact ⟨es', h.trans hes'⟩

end Scene

end PageTest
