import PageTest.Proofs.Page.Answers

/-! What is refused changes nothing, and an input is carried out as a whole or not at all. An input changes
its element and then dispatches an event on it: whatever could refuse the event refuses the change before
it. -/

namespace PageTest

namespace Page

variable {α : Type} {p q : Page α} {es : List (Edit α)} {h : Nat}

/-! What elements are created as -/

/-- What an element is created as: its tag, and whether it is a checkbox. -/
def Edit.made? : Edit α → Option (String × Bool)
  | .create _ tag _ checkbox => some (tag, checkbox)
  | _ => none

/-- What the elements were created as, in order, so that each stands at the place of its element. -/
def made (es : List (Edit α)) : List (String × Bool) := es.filterMap Edit.made?

/-- The tags of form controls. -/
def controls : List String := ["input", "textarea", "select"]

/-- Whether an element has a text, and whether it has a mark. -/
def holdings (e : Element) : Bool × Bool := (e.value.isSome, e.checked.isSome)

/-- What an element has that was created so. -/
def holdingsOf (m : String × Bool) : Bool × Bool := (decide (m.1 ∈ controls), m.2)

theorem holdings_fresh (tag : String) (parent : Option Nat) (checkbox : Bool) :
    holdings (.fresh tag parent checkbox) = holdingsOf (tag, checkbox) := by
  unfold Element.fresh holdings holdingsOf controls
  dsimp only
  split_ifs <;> simp_all

theorem holdings_modify {f : Element → Element} (hf : ∀ e, p.elements[h]? = some e → holdings (f e) = holdings e) :
    (p.modify h f).elements.map holdings = p.elements.map holdings := by
  refine List.ext_getElem? fun i => ?_
  simp only [modify, List.getElem?_map, List.getElem?_modify]
  by_cases hi : h = i
  · subst hi
    cases he : p.elements[h]? with
    | none => simp
    | some e => simp [hf e he]
  · simp [hi]

theorem elements_of_get {e : Element} (hg : p.get h = .ok e) : p.elements[h]? = some e := by
  unfold get at hg
  split at hg
  next found =>
    obtain rfl := Except.ok.inj hg
    exact (get?_eq_some.1 found).1
  next => cases hg

theorem value_eq_ok {v : String} (hv : p.value h = .ok v) : ∃ e, p.get h = .ok e ∧ e.value = some v := by
  unfold value at hv
  split at hv
  · cases hv
  next e hg =>
    split at hv
    next w hw =>
      obtain rfl := Except.ok.inj hv
      exact ⟨e, hg, hw⟩
    next => cases hv

theorem checked_eq_ok {b : Bool} (hb : p.checked h = .ok b) : ∃ e, p.get h = .ok e ∧ e.checked = some b := by
  unfold checked at hb
  split at hb
  · cases hb
  next e hg =>
    split at hb
    next c hc =>
      obtain rfl := Except.ok.inj hb
      exact ⟨e, hg, hc⟩
    next => cases hb

/-- An edit adds what it creates, and gives no element a text or a mark that has none. -/
theorem holdings_edit {e : Edit α} (he : p.edit e = .ok q) :
    q.elements.map holdings = p.elements.map holdings ++ e.made?.toList.map holdingsOf := by
  cases e with
  | create parent tag id checkbox =>
    obtain ⟨⟨i, r⟩, hi, rfl⟩ := map_eq_ok he
    rw [(handle_insert hi).2, List.map_append]
    simp [Edit.made?, holdings_fresh]
  | display i v =>
    obtain ⟨-, -, rfl⟩ := map_eq_ok he
    have kept := holdings_modify (p := p) (h := i) (f := fun e => { e with display := v }) fun _ _ => rfl
    simpa [Edit.made?] using kept
  | value i v =>
    obtain ⟨w, hw, rfl⟩ := map_eq_ok he
    obtain ⟨e, hg, hv⟩ := value_eq_ok hw
    have kept := holdings_modify (f := fun e => { e with value := some v }) fun e' he' => by
      obtain rfl := Option.some.inj ((elements_of_get hg).symm.trans he')
      simp [holdings, hv]
    simpa [Edit.made?] using kept
  | checked i b =>
    obtain ⟨c, hc, rfl⟩ := map_eq_ok he
    obtain ⟨e, hg, hm⟩ := checked_eq_ok hc
    have kept := holdings_modify (f := fun e => { e with checked := some b }) fun e' he' => by
      obtain rfl := Option.some.inj ((elements_of_get hg).symm.trans he')
      simp [holdings, hm]
    simpa [Edit.made?] using kept
  | remove i =>
    refine List.ext_getElem? fun j => ?_
    have gone := getElem?_remove he j
    simp only [Edit.made?, Option.toList_none, List.map_nil, List.append_nil, List.getElem?_map, gone]
    cases p.elements[j]? with
    | none => rfl
    | some e =>
      simp only [Option.map_some]
      split_ifs <;> rfl
  | record d =>
    obtain ⟨⟨r, actions⟩, hd, rfl⟩ := map_eq_ok he
    obtain rfl := dispatch_eq_ok hd
    simp [Edit.made?]
  | handler | listen | fire | unlisten =>
    obtain rfl := Except.ok.inj he
    simp [Edit.made?, addHandler, listen, fire, dropListener]

theorem Edited.holdings (he : empty.Edited es p) : p.elements.map Page.holdings = (made es).map holdingsOf := by
  induction he with
  | start => rfl
  | step _ hlast ih =>
    rw [holdings_edit hlast, ih, made, made, List.filterMap_append, List.map_append]
    congr 1

/-- An element has a text if it was created as a form control, and a mark if it was created as a checkbox. -/
theorem Edited.holdings_of_get {e : Element} (he : empty.Edited es p) (hg : p.get h = .ok e) :
    ∃ m, (made es)[h]? = some m ∧ e.value.isSome = decide (m.1 ∈ controls) ∧ e.checked.isSome = m.2 := by
  have held := congrArg (·[h]?) he.holdings
  simp only [List.getElem?_map, elements_of_get hg, Option.map_some] at held
  obtain ⟨m, hm, eq⟩ := Option.map_eq_some_iff.1 held.symm
  exact ⟨m, hm, (congrArg Prod.fst eq).symm, (congrArg Prod.snd eq).symm⟩

end Page

namespace Scene

open Page

variable {s : Scene} {h : Nat}

section Refusals

variable {target : Option Nat} {f : Fault}

theorem runActions_ne_fault {now : Nat} {exec : Scene → PageStep → Scene × Outcome} {d : Dispatch}
    (actions : List Action) (s : Scene) : (runActions now exec d actions s).2 ≠ .fault f := by
  induction actions generalizing s with
  | nil => simp [runActions]
  | cons a rest ih =>
    rcases ha : runAction now exec d s a with ⟨v, o⟩
    simp only [runActions, ha]
    cases o with
    | none => exact ih v
    | some p => simp

theorem placed_refused {e : Place} {act : Nat → Scene × Outcome} (ha : ∀ i, (act i).2 = .fault f → (act i).1 = s)
    (hr : (s.placed target e act).2 = .fault f) : (s.placed target e act).1 = s := by
  unfold placed at hr ⊢
  cases hp : s.place target e with
  | error err => rfl
  | ok i =>
    rw [hp] at hr
    exact ha i hr

theorem underParent_refused {parent : Option Place} {act : Option Nat → Scene × Outcome}
    (ha : ∀ i, (act i).2 = .fault f → (act i).1 = s) (hr : (s.underParent target parent act).2 = .fault f) :
    (s.underParent target parent act).1 = s := by
  cases parent with
  | none => exact ha none hr
  | some e => exact placed_refused (fun i => ha (some i)) hr

theorem change_refused {r : Except PageError (Page Action)} (hr : (s.change r).2 = .fault f) : (s.change r).1 = s := by
  cases r with
  | error e => rfl
  | ok q => cases hr

theorem create_refused {r : Except PageError (Nat × Page Action)} (hr : (s.create r).2 = .fault f) :
    (s.create r).1 = s := by
  cases r with
  | error e => rfl
  | ok q => cases hr

/-- A dispatch that fails has reached no handler. -/
theorem dispatchWith_refused {now : Nat} {exec : Scene → PageStep → Scene × Outcome}
    {account : Scene → PageStep → Account} {d : Dispatch} (hr : (dispatchWith now exec s d).2 = .fault f) :
    (dispatchWith now exec s d).1 = s ∧ dispatchAccount now exec account s d = .done := by
  unfold dispatchWith at hr
  unfold dispatchWith dispatchAccount
  cases hd : s.page.dispatch d with
  | error e => exact ⟨rfl, rfl⟩
  | ok r =>
    rw [hd] at hr
    exact absurd hr (runActions_ne_fault r.2 _)

/-- A step without an event that fails leaves all as it was. -/
theorem plain_refused (now depth : Nat) (target : Option Nat) {step : PageStep} (h : step.dispatches = false)
    (hr : (s.perform now depth target step).2 = .fault f) : (s.perform now depth target step).1 = s := by
  unfold perform at hr ⊢
  cases step with
  | dispatch => cases h
  | add tag id => cases hr
  | addChild => exact placed_refused (fun _ => create_refused) hr
  | addInput | addCheckbox => exact underParent_refused (fun _ => create_refused) hr
  | setDisplay | setValue | setChecked | remove => exact placed_refused (fun _ => change_refused) hr
  | display | value | checked | tag | showHandle => exact placed_refused (fun _ _ => rfl) hr
  | on => exact placed_refused (fun _ h => by cases h) hr
  | dropListener i =>
    dsimp only at hr ⊢
    split at hr <;> cases hr
  | once | fire | listener | panic => cases hr
  | query | dispatched => rfl

/-- A step that fails leaves all as it was, and calls no handler. -/
theorem perform_refused (now depth : Nat) (target : Option Nat) (s : Scene) (step : PageStep)
    (hr : (s.perform now depth target step).2 = .fault f) :
    (s.perform now depth target step).1 = s ∧ accountOf now depth target s step = .done := by
  cases step with
  | dispatch e kind bubbles =>
    unfold perform placed at hr ⊢
    unfold accountOf
    dsimp only at hr ⊢
    cases hp : s.place target e with
    | error err => exact ⟨rfl, rfl⟩
    | ok i =>
      rw [hp] at hr
      cases depth with
      | zero => cases hr
      | succ depth => exact dispatchWith_refused hr
  | _ => exact ⟨plain_refused now depth target rfl hr, by unfold accountOf; rfl⟩

end Refusals

/-- What a user does to an element. -/
inductive Input where
  | type (text : String)
  | toggle
  | click

namespace Input

/-- The event that tells of it. -/
def kind : Input → String
  | type _ => "input"
  | toggle => "change"
  | click => "click"

def event (i : Input) (h : Nat) : Dispatch := ⟨h, i.kind, true⟩

def give (now depth : Nat) (s : Scene) (h : Nat) : Input → Scene × Outcome
  | type text => s.setText now depth h text
  | toggle => s.clickCheckbox now depth h
  | click => s.click now depth h

/-- What it does to the page before there is an event. -/
def prepare (p : Page Action) (h : Nat) : Input → Except PageError (Page Action)
  | type text => p.setValue h text
  | toggle =>
    match p.checked h with
    | .error e => .error e
    | .ok b => p.setChecked h !b
  | click => .ok p

/-- It is made for elements that were created as `m`. -/
def Suits (m : String × Bool) : Input → Prop
  | type _ => m.1 ∈ controls
  | toggle => m.2 = true
  | click => True

/-- The second page is the first with the input done to the element, and no other change. -/
def Does (p q : Page Action) (h : Nat) : Input → Prop
  | type text => q = p.modify h fun e => { e with value := some text }
  | toggle => ∃ b, p.checked h = .ok b ∧ q = p.modify h fun e => { e with checked := some !b }
  | click => q = p

/-- What the element should have been. -/
def expected : Input → String
  | type _ => "form control"
  | toggle => "checkbox"
  | click => ""

/-- The account of an input. -/
def account (now depth : Nat) (s : Scene) (h : Nat) (i : Input) : Account :=
  match i.prepare s.page h with
  | .error _ => .done
  | .ok page =>
    dispatchAccount now (perform now depth (some h)) (accountOf now depth (some h)) { s with page } (i.event h)

variable {i : Input} {now depth : Nat} {p q : Page Action}

/-- Every input is a change and then an event. -/
theorem give_eq : i.give now depth s h = match i.prepare s.page h with
    | .error e => (s, .fault (.page e))
    | .ok page => bubble now depth { s with page } h i.kind := by
  cases i with
  | type text => rfl
  | click => rfl
  | toggle =>
    simp only [give, clickCheckbox, prepare]
    cases s.page.checked h <;> rfl

theorem prepare_does (hq : i.prepare p h = .ok q) : i.Does p q h := by
  cases i with
  | type text =>
    obtain ⟨-, -, rfl⟩ := map_eq_ok hq
    rfl
  | click => exact (Except.ok.inj hq).symm
  | toggle =>
    simp only [prepare] at hq
    cases hb : p.checked h with
    | error e => rw [hb] at hq; cases hq
    | ok b =>
      rw [hb] at hq
      obtain ⟨-, -, rfl⟩ := map_eq_ok hq
      exact ⟨b, hb, rfl⟩

theorem Does.arena (hd : i.Does p q h) : p.Alike q ∧ q.dispatched = p.dispatched := by
  cases i with
  | click =>
    obtain rfl := hd
    exact ⟨.same rfl rfl, rfl⟩
  | type text =>
    obtain rfl := hd
    exact ⟨alike_modify fun _ => rfl, rfl⟩
  | toggle =>
    obtain ⟨b, -, rfl⟩ := hd
    exact ⟨alike_modify fun _ => rfl, rfl⟩

theorem accounts_give (now depth : Nat) (s : Scene) (h : Nat) (i : Input) :
    Accounts (i.account now depth s h) s (i.give now depth s h).1 := by
  rw [give_eq, account]
  cases hq : i.prepare s.page h with
  | error e => exact .same rfl rfl
  | ok q =>
    have answered : Accounts _ { s with page := q } (bubble now depth { s with page := q } h i.kind).1 :=
      accounts_dispatchWith (accounts_perform now depth (some h)) now _ (i.event h)
    exact ⟨answered.records.trans (by rw [(prepare_does hq).arena.2]), answered.numbered⟩

/-- The element is there, and such as the input needs. -/
theorem prepare_suited {e : Element} {m : String × Bool} (hg : p.get h = .ok e)
    (text : e.value.isSome = decide (m.1 ∈ controls)) (mark : e.checked.isSome = m.2) (hm : i.Suits m) :
    ∃ q, i.prepare p h = .ok q := by
  cases i with
  | click => exact ⟨p, rfl⟩
  | type v =>
    obtain ⟨old, hold⟩ := Option.isSome_iff_exists.1 (text.trans (decide_eq_true hm))
    simp [prepare, setValue, Page.value, hg, hold, Except.map]
  | toggle =>
    obtain ⟨b, hb⟩ := Option.isSome_iff_exists.1 (mark.trans hm)
    simp [prepare, setChecked, checked, hg, hb, Except.map]

theorem prepare_unsuited {e : Element} {m : String × Bool} (hg : p.get h = .ok e)
    (text : e.value.isSome = decide (m.1 ∈ controls)) (mark : e.checked.isSome = m.2) (hm : ¬ i.Suits m) :
    i.prepare p h = .error (.wrongKind h i.expected) := by
  cases i with
  | click => exact absurd trivial hm
  | type v =>
    have none : e.value = none := by simpa using text.trans (decide_eq_false hm)
    simp [prepare, setValue, Page.value, hg, none, Except.map, expected]
  | toggle =>
    have none : e.checked = none := by simpa using mark.trans (Bool.eq_false_iff.2 hm)
    simp [prepare, checked, hg, none, expected]

end Input

/-- The page after the event is recorded and before the first handler is called. -/
def recorded (s : Scene) (q : Page Action) (d : Dispatch) : Scene :=
  { s with page := { q with dispatched := s.page.dispatched ++ [d] } }

/-- An input that is carried out. The element is changed to begin with, then the event is recorded and
its handlers are called, all of them or those up to one that panics. -/
structure Carried (now depth : Nat) (s : Scene) (h : Nat) (i : Input) (q : Page Action) (regs : List Nat)
    (run : Scene × Outcome) : Prop where
  done : i.Does s.page q h
  due : ∀ regs', q.Due (i.event h) regs' ↔ regs' = regs
  answered : run = runActions now (perform now depth (some h)) (i.event h) (q.actionsAt regs)
    (s.recorded q (i.event h))
  ended : run.2 = .value .done ∨ ∃ called a rest u p, q.actionsAt regs = called ++ a :: rest ∧
    runActions now (perform now depth (some h)) (i.event h) called (s.recorded q (i.event h)) = (u, .value .done) ∧
    runAction now (perform now depth (some h)) (i.event h) u a = (run.1, some p) ∧ run.2 = .panic p

/-- All handlers have been called, or one of them panicked and was the last to be called. -/
theorem runActions_ended (now : Nat) (exec : Scene → PageStep → Scene × Outcome) (d : Dispatch)
    (actions : List Action) (s : Scene) : (runActions now exec d actions s).2 = .value .done ∨
      ∃ called a rest u p, actions = called ++ a :: rest ∧ runActions now exec d called s = (u, .value .done) ∧
        runAction now exec d u a = ((runActions now exec d actions s).1, some p) ∧
        (runActions now exec d actions s).2 = .panic p := by
  obtain ⟨cs, -, -, ended⟩ := exists_callsAccount now exec (fun _ _ => .done) d actions s
  rcases ended with ⟨-, done⟩ | ⟨called, c, rest, u, p, rfl, all, ran, panicked, outcome⟩
  · exact .inl done
  · exact .inr ⟨called.map (·.1), c.1, rest, u, p, by simpa using all, ran, panicked, outcome⟩

/-- An event on an attached element is recorded and answered. -/
theorem bubble_attached {q : Page Action} (ha : q.Attached h) (now depth : Nat) (kind : String) :
    bubble now depth { s with page := q } h kind = runActions now (perform now depth (some h)) ⟨h, kind, true⟩
      (q.actionsAt (q.regsOf ⟨h, kind, true⟩))
      { s with page := { q with dispatched := q.dispatched ++ [⟨h, kind, true⟩] } } := by
  obtain ⟨e, hg⟩ := ha.get
  simp only [bubble, dispatchWith, Page.dispatch, hg, actionsAt_regsOf]

theorem carried_of_attached {es : List (Edit Action)} (he : Page.empty.Edited es s.page) (now depth : Nat) {i : Input}
    {m : String × Bool} (ha : s.page.Attached h) (made : (made es)[h]? = some m) (suits : i.Suits m) :
    ∃ q regs, Carried now depth s h i q regs (i.give now depth s h) := by
  obtain ⟨e, hg⟩ := ha.get
  obtain ⟨m', hm', text, mark⟩ := he.holdings_of_get hg
  obtain rfl := Option.some.inj (made.symm.trans hm')
  obtain ⟨q, hq⟩ := Input.prepare_suited hg text mark suits
  have does := Input.prepare_does hq
  obtain ⟨alike, dispatched⟩ := does.arena
  have answered : i.give now depth s h = runActions now (perform now depth (some h)) (i.event h)
      (q.actionsAt (q.regsOf (i.event h))) (s.recorded q (i.event h)) := by
    rw [Input.give_eq, hq]
    exact (bubble_attached ((alike.attached h).2 ha) now depth i.kind).trans (by rw [dispatched]; rfl)
  refine ⟨q, q.regsOf (i.event h), does, fun regs' => (alike.sound he.sound).due_iff, answered, ?_⟩
  rw [answered]
  exact runActions_ended now _ _ _ _

theorem refused_of_detached (now depth : Nat) (i : Input) (ha : ¬ s.page.Attached h) :
    i.give now depth s h = (s, .fault (.page (.detached h))) ∧ i.account now depth s h = .done := by
  have gone := get_of_detached ha
  rw [Input.give_eq, Input.account]
  cases i with
  | type text =>
    have refused : Input.prepare s.page h (.type text) = .error (.detached h) := by
      simp [Input.prepare, setValue, Page.value, gone, Except.map]
    rw [refused]
    exact ⟨rfl, rfl⟩
  | toggle =>
    have refused : Input.prepare s.page h .toggle = .error (.detached h) := by
      simp [Input.prepare, checked, gone]
    rw [refused]
    exact ⟨rfl, rfl⟩
  | click =>
    have refused : s.page.dispatch (Input.click.event h) = .error (.detached h) := by
      simp [Page.dispatch, Input.event, gone]
    simp only [Input.prepare, bubble, dispatchWith, dispatchAccount]
    have event : (⟨h, Input.click.kind, true⟩ : Dispatch) = Input.click.event h := rfl
    exact ⟨by rw [event, refused], by rw [refused]⟩

theorem refused_of_unsuited {es : List (Edit Action)} (he : Page.empty.Edited es s.page) (now depth : Nat) {i : Input}
    {m : String × Bool} (ha : s.page.Attached h) (made : (made es)[h]? = some m) (unsuited : ¬ i.Suits m) :
    i.give now depth s h = (s, .fault (.page (.wrongKind h i.expected))) ∧ i.account now depth s h = .done := by
  obtain ⟨e, hg⟩ := ha.get
  obtain ⟨m', hm', text, mark⟩ := he.holdings_of_get hg
  obtain rfl := Option.some.inj (made.symm.trans hm')
  have refused := Input.prepare_unsuited (p := s.page) hg text mark unsuited
  rw [Input.give_eq, Input.account, refused]
  exact ⟨rfl, rfl⟩

end Scene

open Scene Page

/-- A step that fails leaves all as it was, and calls no handler. An input is carried out if the element is
attached and was created as what the input is made for; else it leaves all as it was too. Either way
the record and the trace of calls grow by what is in the account of the input. -/
theorem inputs_all_or_nothing {es : List (Edit Action)} {s : Scene} (he : Page.empty.Edited es s.page) (now : Nat) :
    (∀ depth target step f, (s.perform now depth target step).2 = .fault f →
      (s.perform now depth target step).1 = s ∧ accountOf now depth target s step = .done) ∧
    ∀ (depth h : Nat) (i : Input), Accounts (i.account now depth s h) s (i.give now depth s h).1 ∧
      (¬ s.page.Attached h → i.give now depth s h = (s, .fault (.page (.detached h))) ∧ i.account now depth s h = .done) ∧
      (s.page.Attached h → ∃ m, (made es)[h]? = some m ∧
        (i.Suits m → ∃ q regs, Carried now depth s h i q regs (i.give now depth s h)) ∧
        (¬ i.Suits m →
          i.give now depth s h = (s, .fault (.page (.wrongKind h i.expected))) ∧ i.account now depth s h = .done)) := by
  refine ⟨fun depth target step f => perform_refused now depth target s step, ?_⟩
  intro depth h i
  refine ⟨Input.accounts_give now depth s h i, refused_of_detached now depth i, ?_⟩
  intro ha
  obtain ⟨e, hg⟩ := ha.get
  obtain ⟨m, made, -, -⟩ := he.holdings_of_get hg
  exact ⟨m, made, carried_of_attached he now depth ha made, refused_of_unsuited he now depth ha made⟩

/-- A text field, a checkbox that removes itself when it is turned over, and an element that is neither. -/
def Demo.fields : Scene := .ofPage
  { elements := [⟨"input", none, "inline", some "", none, true⟩, ⟨"input", none, "inline", some "", some false, true⟩,
      ⟨"div", none, "block", none, none, true⟩]
    ids := []
    handlers := [⟨1, "change", .steps 0 [.remove (.handle 1)]⟩]
    listeners := []
    dispatched := [] }

/-- There is no typing into the last, no turning over of the first, and no element after them. -/
theorem inputs_all_or_nothing_fields :
    setText 0 9 Demo.fields 2 "text" = (Demo.fields, .fault (.page (.wrongKind 2 "form control"))) ∧
      clickCheckbox 0 9 Demo.fields 0 = (Demo.fields, .fault (.page (.wrongKind 0 "checkbox"))) ∧
      click 0 9 Demo.fields 3 = (Demo.fields, .fault (.page (.detached 3))) ∧
      ∃ q regs, Carried 0 9 Demo.fields 1 .toggle q regs (clickCheckbox 0 9 Demo.fields 1) := by
  have hedits : Page.empty.Edited [.create none "input" "" false, .create none "input" "" true,
      .create none "div" "" false, .handler 1 "change" (.steps 0 [.remove (.handle 1)])] Demo.fields.page :=
    Page.edited_of_foldlM rfl
  have inputs := (inputs_all_or_nothing hedits 0).2
  refine ⟨?_, ?_, ((inputs 9 3 .click).2.1 ?_).1, ?_⟩
  · obtain ⟨m, hm, -, unsuited⟩ := (inputs 9 2 (.type "text")).2.2 ⟨_, rfl, rfl⟩
    obtain rfl := Option.some.inj hm
    exact (unsuited (by simp [Input.Suits, controls])).1
  · obtain ⟨m, hm, -, unsuited⟩ := (inputs 9 0 .toggle).2.2 ⟨_, rfl, rfl⟩
    obtain rfl := Option.some.inj hm
    exact (unsuited nofun).1
  · rintro ⟨e, he, -⟩
    cases he
  · obtain ⟨m, hm, suited, -⟩ := (inputs 9 1 .toggle).2.2 ⟨_, rfl, rfl⟩
    obtain rfl := Option.some.inj hm
    exact suited rfl

end PageTest
