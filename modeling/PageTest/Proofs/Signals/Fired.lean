import PageTest.Proofs.Page.Changes

/-! Which signals a step on the page fires, those that its handlers fire among them, and what becomes of
a listener by them. A listener that no step asks about by number is completed by the first signal that it
waits for, and by nothing else; and whenever that happens there is a notice for whoever waits for it. -/

namespace PageTest

/-- A page-wide signal. -/
structure Signal where
  target : SignalTarget
  event : String
  deriving DecidableEq, Repr

namespace Listener

def signal (a : Listener) : Signal := ⟨a.target, a.event⟩

/-- A listener after some signals. -/
def after (σ : List Signal) (a : Listener) : Listener :=
  if a.state = .waiting ∧ a.signal ∈ σ then { a with state := .fired } else a

variable {a : Listener} {σ τ : List Signal}

theorem after_nil : a.after [] = a := by simp [after]

theorem after_of_notMem (h : a.signal ∉ σ) : a.after σ = a := by simp [after, h]

theorem after_append : (a.after σ).after τ = a.after (σ ++ τ) := by
  by_cases hw : a.state = .waiting
  · by_cases h : a.signal ∈ σ
    · simp [after, hw, h]
    · by_cases h' : a.signal ∈ τ <;> simp [after, hw, h, h']
  · simp [after, hw]

end Listener

namespace Scene

/-! What is fired -/

section

variable (now : Nat) (exec : Scene → PageStep → Scene × Outcome) (sig : Scene → PageStep → List Signal)

/-- The signals that the steps of a handler fire. -/
def stepsSignals (who : Origin) : List PageStep → Scene → List Signal
  | [], _ => []
  | step :: rest, s =>
    sig s step ++ match exec s step with
      | (s, .value r) => stepsSignals who rest (s.note now who (.returned step.name r))
      | (s, .fault f) => stepsSignals who rest (s.note now who (.failed step.name f))
      | (_, .panic _) => []

def actionSignals (d : Dispatch) (s : Scene) : Action → List Signal
  | .steps i body => stepsSignals now exec sig (.handler i) body (s.note now (.handler i) (.event d))
  | _ => []

def actionsSignals (d : Dispatch) : List Action → Scene → List Signal
  | [], _ => []
  | a :: rest, s =>
    actionSignals now exec sig d s a ++ match runAction now exec d s a with
      | (s, none) => actionsSignals d rest s
      | (_, some _) => []

/-- The signals that the handlers of an event fire. -/
def dispatchSignals (s : Scene) (d : Dispatch) : List Signal :=
  match s.page.dispatch d with
  | .error _ => []
  | .ok (page, actions) => actionsSignals now exec sig d actions { s with page }

end

/-- The signals that a step on the page fires, in order. -/
def signalsOf (now : Nat) : Nat → Option Nat → Scene → PageStep → List Signal
  | depth, target, s, step =>
    match step with
    | .fire t event => [⟨t, event⟩]
    | .dispatch e kind bubbles =>
      match s.place target e with
      | .error _ => []
      | .ok h =>
        match depth with
        | 0 => []
        | depth + 1 =>
          dispatchSignals now (perform now depth (some h)) (signalsOf now depth (some h)) s ⟨h, kind, bubbles⟩
    | _ => []

def bubbleSignals (now depth : Nat) (s : Scene) (h : Nat) (kind : String) : List Signal :=
  dispatchSignals now (perform now depth (some h)) (signalsOf now depth (some h)) s ⟨h, kind, true⟩

def setTextSignals (now depth : Nat) (s : Scene) (h : Nat) (text : String) : List Signal :=
  match s.page.setValue h text with
  | .error _ => []
  | .ok page => bubbleSignals now depth { s with page } h "input"

def clickCheckboxSignals (now depth : Nat) (s : Scene) (h : Nat) : List Signal :=
  match s.page.checked h with
  | .error _ => []
  | .ok b =>
    match s.page.setChecked h !b with
    | .error _ => []
    | .ok page => bubbleSignals now depth { s with page } h "change"

def clickSignals (now depth : Nat) (s : Scene) (h : Nat) : List Signal := bubbleSignals now depth s h "click"

/-! What is heard -/

/-- What the signals fired on the way from one scene to another do to the listeners that no step asks
about by number. -/
structure Hears (σ : List Signal) (s s' : Scene) : Prop where
  grows : s.page.listeners.length ≤ s'.page.listeners.length
  heard : ∀ (l : Nat) (a : Listener), s.page.listeners[l]? = some a → some l ∉ s.slots →
    s'.page.listeners[l]? = some (a.after σ)
  slots : ∀ l, some l ∈ s'.slots →
    some l ∈ s.slots ∨ (s.page.listeners.length ≤ l ∧ l < s'.page.listeners.length)

/-- The same, with a notice for every listener that was completed. -/
structure Tells (σ : List Signal) (s s' : Scene) : Prop extends Hears σ s s' where
  notices : ∀ n ∈ s.notices, n ∈ s'.notices
  told : ∀ (l : Nat) (a : Listener), s.page.listeners[l]? = some a → some l ∉ s.slots →
    a.state = .waiting → a.signal ∈ σ → .fired l ∈ s'.notices

variable {σ τ : List Signal} {s s' s'' : Scene}

namespace Hears

/-- Nothing of concern to a listener happens. -/
theorem same (hp : s'.page.listeners = s.page.listeners) (hs : s'.slots = s.slots) : Hears [] s s' where
  grows := by rw [hp]
  heard l a hl _ := by rw [hp, hl, Listener.after_nil]
  slots l h := .inl (hs ▸ h)

theorem still (h : Hears σ s s') {l : Nat} (hl : l < s.page.listeners.length) (hs : some l ∉ s.slots) :
    some l ∉ s'.slots := by
  intro h'
  rcases h.slots l h' with h1 | h1
  · exact hs h1
  · omega

theorem trans (h : Hears σ s s') (h' : Hears τ s' s'') : Hears (σ ++ τ) s s'' where
  grows := h.grows.trans h'.grows
  heard l a hl hs := by
    have hlt := (List.getElem?_eq_some_iff.1 hl).1
    rw [h'.heard l _ (h.heard l a hl hs) (h.still hlt hs), Listener.after_append]
  slots l hl := by
    have h1 := h.grows
    have h2 := h'.grows
    rcases h'.slots l hl with h3 | h3
    · rcases h.slots l h3 with h4 | h4
      · exact .inl h4
      · exact .inr (by omega)
    · exact .inr (by omega)

end Hears

namespace Tells

theorem same (hp : s'.page.listeners = s.page.listeners) (hs : s'.slots = s.slots)
    (hn : s'.notices = s.notices) : Tells [] s s' :=
  { Hears.same hp hs with
    notices := fun n h => hn ▸ h
    told := fun l a _ _ _ h => by simp at h }

theorem refl (s : Scene) : Tells [] s s := same rfl rfl rfl

theorem trans (h : Tells σ s s') (h' : Tells τ s' s'') : Tells (σ ++ τ) s s'' :=
  { h.toHears.trans h'.toHears with
    notices := fun n hn => h'.notices n (h.notices n hn)
    told := fun l a hl hs hw hm => by
      by_cases h1 : a.signal ∈ σ
      · exact h'.notices _ (h.told l a hl hs hw h1)
      · have hlt := (List.getElem?_eq_some_iff.1 hl).1
        have h2 := h.heard l a hl hs
        rw [Listener.after_of_notMem h1] at h2
        exact h'.told l a h2 (h.still hlt hs) hw ((List.mem_append.1 hm).resolve_left h1) }

theorem note (s : Scene) (now : Nat) (who : Origin) (what : Remark) : Tells [] s (s.note now who what) := by
  unfold Scene.note
  split_ifs <;> exact same rfl rfl rfl

theorem after_note {now : Nat} {who : Origin} {what : Remark} (h : Tells σ (s.note now who what) s') :
    Tells σ s s' := by
  simpa using (note s now who what).trans h

/-! Signals and listeners -/

theorem fire (s : Scene) (target : SignalTarget) (event : String) :
    Tells [⟨target, event⟩] s (s.fire target event).1 where
  grows := by simp [Scene.fire, Page.fire]
  heard l a hl _ := by
    simp only [Scene.fire, Page.fire, List.getElem?_map, hl, Option.map_some, Option.some.injEq,
      Listener.after, Listener.signal, Page.isCalled, List.mem_singleton, Signal.mk.injEq]
    by_cases h1 : a.state = .waiting <;> by_cases h2 : a.target = target <;> by_cases h3 : a.event = event <;>
      simp [h1, h2, h3]
  slots l h := .inl h
  notices n h := List.mem_append_left _ h
  told l a hl _ hw hm := by
    obtain ⟨hlt, rfl⟩ := List.getElem?_eq_some_iff.1 hl
    simp only [Listener.signal, List.mem_singleton, Signal.mk.injEq] at hm
    simp [Scene.fire, Page.fire, hlt, Page.isCalled, hw, hm]

theorem once (s : Scene) (target : SignalTarget) (event : String) :
    Tells [] s { s with
      page := (s.page.listen target event).2
      slots := s.slots ++ [some (s.page.listen target event).1] } where
  grows := by simp [Page.listen]
  heard l a hl _ := by
    have hlt := (List.getElem?_eq_some_iff.1 hl).1
    simp [Page.listen, List.getElem?_append_left hlt, hl, Listener.after_nil]
  slots l h := by
    rcases List.mem_append.1 h with h1 | h1
    · exact .inl h1
    · obtain rfl : l = s.page.listeners.length := by simpa [Page.listen] using h1
      exact .inr ⟨le_rfl, by simp [Page.listen]⟩
  notices n h := h
  told l a _ _ _ h := by simp at h

theorem forget (s : Scene) (i : Nat) : Tells [] s (s.forget i) where
  grows := le_rfl
  heard l a hl _ := by rw [Listener.after_nil]; exact hl
  slots l h := (List.mem_or_eq_of_mem_set h).elim .inl (by simp)
  notices n h := h
  told l a _ _ _ h := by simp at h

/-- A listener is given up by the step that asks about it, or by whoever waits for it. -/
theorem drop (s : Scene) {i l : Nat} (hi : s.slots[i]? = some (some l)) :
    Tells [] s { s.forget i with page := s.page.dropListener l } where
  grows := by simp [Page.dropListener]
  heard l' a hl hs := by
    have hne : l ≠ l' := by
      rintro rfl
      exact hs (List.mem_of_getElem? hi)
    simp [Page.dropListener, hne, hl, Listener.after_nil]
  slots l' h := (List.mem_or_eq_of_mem_set h).elim .inl (by simp)
  notices n h := h
  told l a _ _ _ h := by simp at h

/-! Single steps -/

theorem placed {target : Option Nat} {e : Place} {act : Nat → Scene × Outcome} (h : ∀ i, Tells [] s (act i).1) :
    Tells [] s (s.placed target e act).1 := by
  unfold Scene.placed
  cases s.place target e with
  | error e => exact refl s
  | ok i => exact h i

/-- A change of elements is none of the listeners. -/
theorem change {e : Page.Edit Action} (hk : e.inElements = true) : Tells [] s (s.change (s.page.edit e)).1 := by
  cases hr : s.page.edit e with
  | error err => exact refl s
  | ok q => exact same (Page.beside_of_edit hk hr).2.1 rfl rfl

theorem create (parent : Option Nat) (tag id : String) (checkbox : Bool) :
    Tells [] s (s.create (s.page.insert parent tag id checkbox)).1 := by
  cases hr : s.page.insert parent tag id checkbox with
  | error e => exact refl s
  | ok r =>
    have he : s.page.edit (.create parent tag id checkbox) = .ok r.2 := by simp [Page.edit, hr, Except.map]
    exact same (Page.beside_of_edit rfl he).2.1 rfl rfl

theorem underParent {target : Option Nat} {parent : Option Place} {act : Option Nat → Scene × Outcome}
    (h : ∀ i, Tells [] s (act i).1) : Tells [] s (s.underParent target parent act).1 := by
  cases parent with
  | none => exact h none
  | some e => exact placed fun i => h (some i)

end Tells

/-- A step that no handler answers to. -/
theorem tells_plain (now depth : Nat) (target : Option Nat) {step : PageStep} (h : step.dispatches = false) :
    Tells (signalsOf now depth target s step) s (s.perform now depth target step).1 := by
  unfold perform signalsOf
  cases step with
  | dispatch => simp [PageStep.dispatches] at h
  | fire t event => exact .fire s t event
  | add tag id => exact Tells.create none tag id false
  | addChild => exact .placed fun h => .create (some h) _ _ _
  | addInput => exact .underParent fun h => .create h _ _ _
  | addCheckbox => exact .underParent fun h => .create h _ _ _
  | setDisplay e v => exact .placed fun h => .change (e := .display h v) rfl
  | setValue e v => exact .placed fun h => .change (e := .value h v) rfl
  | setChecked e v => exact .placed fun h => .change (e := .checked h v) rfl
  | remove => exact .placed fun h => .change (e := .remove h) rfl
  | display | value | checked | tag | showHandle => exact .placed fun _ => .refl s
  | on e kind body => exact .placed fun _ => .same rfl rfl rfl
  | once t event => exact .once s t event
  | listener i =>
    dsimp only
    split_ifs
    · exact .forget s i
    · exact .refl s
  | dropListener i =>
    dsimp only
    split
    next l hl => exact .drop s hl
    next => exact .refl s
  | query | dispatched | panic => exact .refl s

/-! Handlers -/

section Handlers

variable {exec : Scene → PageStep → Scene × Outcome} {sig : Scene → PageStep → List Signal}
  (h : ∀ (s : Scene) (step : PageStep), Tells (sig s step) s (exec s step).1)

include h

theorem tells_runSteps (now : Nat) (who : Origin) (steps : List PageStep) (s : Scene) :
    Tells (stepsSignals now exec sig who steps s) s (runSteps now who exec steps s).1 := by
  induction steps generalizing s with
  | nil => exact .refl s
  | cons step rest ih =>
    have hstep := h s step
    rcases he : exec s step with ⟨v, o⟩
    rw [he] at hstep
    simp only [stepsSignals, runSteps, he]
    cases o with
    | value r => exact hstep.trans (ih _).after_note
    | fault f => exact hstep.trans (ih _).after_note
    | panic p => simpa using hstep

theorem tells_runAction (now : Nat) (d : Dispatch) (s : Scene) (a : Action) :
    Tells (actionSignals now exec sig d s a) s (runAction now exec d s a).1 := by
  cases a with
  | steps i body => exact (tells_runSteps h now (.handler i) body _).after_note
  | reveal field panel =>
    unfold runAction
    dsimp only
    split
    next page hq => exact .same (Page.beside_of_edit (e := .display panel _) rfl hq).2.1 rfl rfl
    next => exact .refl s
  | navigate => exact { Tells.refl s with notices := fun n hn => List.mem_append_left _ hn, told := by simp [actionSignals] }

theorem tells_runActions (now : Nat) (d : Dispatch) (actions : List Action) (s : Scene) :
    Tells (actionsSignals now exec sig d actions s) s (runActions now exec d actions s).1 := by
  induction actions generalizing s with
  | nil => exact .refl s
  | cons a rest ih =>
    have ha := tells_runAction h now d s a
    rcases he : runAction now exec d s a with ⟨v, o⟩
    rw [he] at ha
    simp only [actionsSignals, runActions, he]
    cases o with
    | none => exact ha.trans (ih v)
    | some p => simpa using ha

theorem tells_dispatchWith (now : Nat) (s : Scene) (d : Dispatch) :
    Tells (dispatchSignals now exec sig s d) s (dispatchWith now exec s d).1 := by
  unfold dispatchSignals dispatchWith
  cases hd : s.page.dispatch d with
  | error e => exact .refl s
  | ok r =>
    have hl : r.1.listeners = s.page.listeners := by rw [Page.dispatch_eq_ok hd]
    have hs : Tells [] s { s with page := r.1 } := .same hl rfl rfl
    exact hs.trans (tells_runActions h now d r.2 _)

end Handlers

/-- A step with all that handlers do about it, however deep events are nested. -/
theorem tells_perform (now depth : Nat) (target : Option Nat) (s : Scene) (step : PageStep) :
    Tells (signalsOf now depth target s step) s (s.perform now depth target step).1 := by
  induction depth generalizing target s step with
  | zero =>
    cases step with
    | dispatch e kind bubbles =>
      unfold perform signalsOf
      dsimp only
      unfold placed
      cases s.place target e <;> exact .refl s
    | _ => exact tells_plain now 0 target rfl
  | succ depth ih =>
    cases step with
    | dispatch e kind bubbles =>
      unfold perform signalsOf
      dsimp only
      unfold placed
      cases s.place target e with
      | error e => exact .refl s
      | ok h => exact tells_dispatchWith (fun s step => ih (some h) s step) now s _
    | _ => exact tells_plain now (depth + 1) target rfl

/-! Inputs -/

theorem tells_bubble (now depth : Nat) (s : Scene) (h : Nat) (kind : String) :
    Tells (bubbleSignals now depth s h kind) s (s.bubble now depth h kind).1 :=
  tells_dispatchWith (fun s step => tells_perform now depth (some h) s step) now s _

theorem tells_setText (now depth : Nat) (s : Scene) (h : Nat) (text : String) :
    Tells (setTextSignals now depth s h text) s (s.setText now depth h text).1 := by
  unfold setTextSignals setText
  cases hq : s.page.setValue h text with
  | error e => exact .refl s
  | ok q =>
    have hs : Tells [] s { s with page := q } := .same (Page.beside_of_edit (e := .value h text) rfl hq).2.1 rfl rfl
    exact hs.trans (tells_bubble now depth _ h "input")

theorem tells_clickCheckbox (now depth : Nat) (s : Scene) (h : Nat) :
    Tells (clickCheckboxSignals now depth s h) s (s.clickCheckbox now depth h).1 := by
  unfold clickCheckboxSignals clickCheckbox
  cases s.page.checked h with
  | error e => exact .refl s
  | ok b =>
    dsimp only
    cases hq : s.page.setChecked h !b with
    | error e => exact .refl s
    | ok q =>
      have hs : Tells [] s { s with page := q } := .same (Page.beside_of_edit (e := .checked h !b) rfl hq).2.1 rfl rfl
      exact hs.trans (tells_bubble now depth _ h "change")

end Scene

end PageTest
