import PageTest.Page.Events
import Mathlib.Tactic

/-! What is done to a page, one edit after another, in the order in which it is done. Questions are no edits, and
neither is what the page refuses. -/

namespace PageTest.Page

/-- A change of a page with all that it is made of. -/
inductive Edit (α : Type) where
  | create (parent : Option Nat) (tag id : String) (checkbox : Bool)
  | display (h : Nat) (v : String)
  | value (h : Nat) (v : String)
  | checked (h : Nat) (b : Bool)
  | remove (h : Nat)
  | handler (h : Nat) (kind : String) (action : α)
  | record (d : Dispatch)
  | listen (target : SignalTarget) (event : String)
  | fire (target : SignalTarget) (event : String)
  | unlisten (i : Nat)

/-- The id that an element is created with. -/
def Edit.id? {α : Type} : Edit α → Option String
  | create _ _ id _ => some id
  | _ => none

/-- The element that is removed with all that is below it. -/
def Edit.removed? {α : Type} : Edit α → Option Nat
  | remove h => some h
  | _ => none

/-- The event that is recorded. -/
def Edit.event? {α : Type} : Edit α → Option Dispatch
  | record d => some d
  | _ => none

/-- It is done to elements. -/
def Edit.inElements {α : Type} : Edit α → Bool
  | create .. | display .. | value .. | checked .. | remove .. => true
  | _ => false

variable {α : Type} {p q r : Page α} {es es' : List (Edit α)}

/-- The page after an edit, unless it refuses. -/
def edit (p : Page α) : Edit α → Except PageError (Page α)
  | .create parent tag id checkbox => (p.insert parent tag id checkbox).map (·.2)
  | .display h v => p.setDisplay h v
  | .value h v => p.setValue h v
  | .checked h b => p.setChecked h b
  | .remove h => p.remove h
  | .handler h kind action => .ok (p.addHandler h kind action)
  | .record d => (p.dispatch d).map (·.1)
  | .listen target event => .ok (p.listen target event).2
  | .fire target event => .ok (p.fire target event).2
  | .unlisten i => .ok (p.dropListener i)

theorem map_eq_ok {β γ : Type} {f : β → γ} {x : Except PageError β} {c : γ} (h : x.map f = .ok c) :
    ∃ b, x = .ok b ∧ f b = c := by
  cases x with
  | error e => simp [Except.map] at h
  | ok b => exact ⟨b, rfl, Except.ok.inj h⟩

/-- What is done to elements is nothing to handlers, listeners and the record. -/
theorem beside_of_edit {e : Edit α} (hk : e.inElements = true) (he : p.edit e = .ok q) :
    q.handlers = p.handlers ∧ q.listeners = p.listeners ∧ q.dispatched = p.dispatched := by
  cases e with
  | create parent tag id checkbox =>
    obtain ⟨⟨h, r⟩, hi, rfl⟩ := map_eq_ok he
    unfold insert at hi
    cases parent with
    | none =>
      obtain ⟨-, rfl⟩ := Prod.mk.inj (Except.ok.inj hi)
      exact ⟨rfl, rfl, rfl⟩
    | some k =>
      dsimp only at hi
      split at hi
      · simp at hi
      · obtain ⟨-, rfl⟩ := Prod.mk.inj (Except.ok.inj hi)
        exact ⟨rfl, rfl, rfl⟩
  | display h v | value h v | checked h b =>
    obtain ⟨-, -, rfl⟩ := map_eq_ok he
    exact ⟨rfl, rfl, rfl⟩
  | remove h =>
    have hr : p.remove h = .ok q := he
    unfold remove at hr
    split at hr
    · simp at hr
    · obtain rfl := Except.ok.inj hr
      exact ⟨rfl, rfl, rfl⟩
  | handler | record | listen | fire | unlisten => simp [Edit.inElements] at hk

theorem dispatch_eq_ok {d : Dispatch} {actions : List α} (hd : p.dispatch d = .ok (q, actions)) :
    q = { p with dispatched := p.dispatched ++ [d] } := by
  unfold dispatch at hd
  split at hd
  · simp at hd
  · exact (Prod.mk.inj (Except.ok.inj hd)).1.symm

/-- Only what is dispatched is recorded. -/
theorem dispatched_of_edit {e : Edit α} (hn : e.event? = none) (he : p.edit e = .ok q) :
    q.dispatched = p.dispatched := by
  cases e with
  | create | display | value | checked | remove => exact (beside_of_edit rfl he).2.2
  | record d => simp [Edit.event?] at hn
  | handler | listen | fire | unlisten =>
    obtain rfl := Except.ok.inj he
    rfl

/-- The second page is the first after these edits, none of them refused. -/
inductive Edited (p : Page α) : List (Edit α) → Page α → Prop
  | start : Edited p [] p
  | step {es : List (Edit α)} {q r : Page α} {e : Edit α} :
      Edited p es q → q.edit e = .ok r → Edited p (es ++ [e]) r

theorem Edited.trans (h : p.Edited es q) (h' : q.Edited es' r) : p.Edited (es ++ es') r := by
  induction h' with
  | start => simpa using h
  | step _ he ih => simpa using ih.step he

theorem edited_of_foldlM (h : es.foldlM edit p = .ok q) : p.Edited es q := by
  -- from the end, where a history grows
  induction es using List.reverseRecOn generalizing q with
  | nil =>
    obtain rfl := Except.ok.inj h
    exact .start
  | append_singleton es e ih =>
    rw [List.foldlM_append] at h
    cases hes : es.foldlM edit p with
    | error err => simp [hes, bind, Except.bind] at h
    | ok m =>
      refine (ih hes).step ?_
      have hlast : (m.edit e >>= pure) = .ok q := by simpa [hes, bind, Except.bind] using h
      rwa [bind_pure] at hlast

theorem Edited.foldlM (h : p.Edited es q) : es.foldlM edit p = .ok q := by
  induction h with
  | start => rfl
  | step _ he ih =>
    rw [List.foldlM_append, ih]
    simp [bind, Except.bind, he, pure, Except.pure]

theorem Edited.split (h : p.Edited (es ++ es') q) : ∃ m, p.Edited es m ∧ m.Edited es' q := by
  have hfold := h.foldlM
  rw [List.foldlM_append] at hfold
  cases hes : es.foldlM edit p with
  | error err => simp [hes, bind, Except.bind] at hfold
  | ok m =>
    rw [hes] at hfold
    exact ⟨m, edited_of_foldlM hes, edited_of_foldlM hfold⟩

end PageTest.Page
