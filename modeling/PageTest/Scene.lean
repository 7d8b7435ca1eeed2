import PageTest.Outcome
import PageTest.Page.Events
import PageTest.Script

/-! The page with what the steps that touch it keep: a trace of what ran, listeners by number, and the
signals that tasks have still to be told about. Handlers run at once, inside the step that dispatched their
event, and may dispatch further events themselves. -/

namespace PageTest

/-- Whose step it is. -/
inductive Origin where
  | test (name : String)
  | task (i : Nat)
  | script (path : String)
  | handler (i : Nat)
  /-- Steps that leave no trace. -/
  | hidden
  deriving DecidableEq, Repr

namespace Origin

def word : Origin → String
  | test name => "test:" ++ name
  | task i => "task:" ++ toString i
  | script path => "script:" ++ path
  | handler i => "handler:" ++ toString i
  | hidden => ""

end Origin

inductive Remark where
  | returned (step : String) (r : Reply)
  | failed (step : String) (f : Fault)
  | raised (f : Fault)
  | event (d : Dispatch)
  deriving DecidableEq, Repr

structure TraceEntry where
  time : Nat
  who : Origin
  what : Remark
  deriving DecidableEq, Repr

/-- What tasks have to be told about after a step on the page. -/
inductive Notice where
  /-- A listener was completed. -/
  | fired (listener : Nat)
  /-- The frame is on its way to another page. -/
  | navigated
  deriving DecidableEq, Repr

structure Scene where
  page : Page Action
  /-- The listeners that steps ask about by number; none when its end has been seen. -/
  slots : List (Option Nat)
  /-- How many handlers have been numbered. -/
  handlers : Nat
  notices : List Notice
  trace : List TraceEntry
  deriving Repr

namespace Scene

def ofPage (p : Page Action) : Scene := ⟨p, [], 0, [], []⟩

def empty : Scene := ofPage .empty

def note (s : Scene) (now : Nat) (who : Origin) (what : Remark) : Scene :=
  if who = .hidden then s else { s with trace := s.trace ++ [⟨now, who, what⟩] }

/-- The handle that stands for a target where no event is being handled. -/
def noTarget : Nat := Nat.pow 2 64 - 1

/-- The element a step on the page names. -/
def place (s : Scene) (target : Option Nat) : Place → Except PageError Nat
  | .handle h => .ok h
  | .selector sel => s.page.query sel
  | .target => .ok (target.getD noTarget)
  | .found _ => .ok noTarget

def placed (s : Scene) (target : Option Nat) (e : Place) (act : Nat → Scene × Outcome) : Scene × Outcome :=
  match s.place target e with
  | .error e => (s, .fault (.page e))
  | .ok h => act h

/-- A question to the page. -/
def ask {β : Type} (s : Scene) (r : Except PageError β) (reply : β → Reply) : Scene × Outcome :=
  (s, .ofPage reply r)

/-- A change of the page. -/
def change (s : Scene) (r : Except PageError (Page Action)) : Scene × Outcome :=
  match r with
  | .error e => (s, .fault (.page e))
  | .ok page => ({ s with page }, .value .done)

/-- A change of the page that gives a handle. -/
def create (s : Scene) (r : Except PageError (Nat × Page Action)) : Scene × Outcome :=
  match r with
  | .error e => (s, .fault (.page e))
  | .ok (h, page) => ({ s with page }, .value (.handle h))

/-- The parent that a step names, if it names one. -/
def underParent (s : Scene) (target : Option Nat) (parent : Option Place)
    (act : Option Nat → Scene × Outcome) : Scene × Outcome :=
  match parent with
  | none => act none
  | some e => s.placed target e fun h => act (some h)

/-- What has become of the listener with a number. That it fired is told once. -/
def listenerReport (s : Scene) (i : Nat) : ListenerReport :=
  match s.slots[i]? with
  | some (some l) =>
    match s.page.listenerState l with
    | some .waiting => .pending
    | some .fired => .fired
    | some .dropped => .closed
    | none => .gone
  | _ => .gone

def forget (s : Scene) (i : Nat) : Scene := { s with slots := s.slots.set i none }

/-- Takes the steps of a handler. A panic ends it and every handler after it. -/
def runSteps (now : Nat) (who : Origin) (exec : Scene → PageStep → Scene × Outcome) :
    List PageStep → Scene → Scene × Option Panic
  | [], s => (s, none)
  | step :: rest, s =>
    match exec s step with
    | (s, .value r) => runSteps now who exec rest (s.note now who (.returned step.name r))
    | (s, .fault f) => runSteps now who exec rest (s.note now who (.failed step.name f))
    | (s, .panic p) => (s, some p)

def runAction (now : Nat) (exec : Scene → PageStep → Scene × Outcome) (d : Dispatch) (s : Scene) :
    Action → Scene × Option Panic
  | .steps i body => runSteps now (.handler i) exec body (s.note now (.handler i) (.event d))
  | .reveal field panel =>
    let shown := match s.page.value field with
      | .ok v => v != ""
      | .error _ => false
    match s.page.setDisplay panel (if shown then "block" else "none") with
    | .ok page => ({ s with page }, none)
    | .error _ => (s, none)
  | .navigate => ({ s with notices := s.notices ++ [.navigated] }, none)

def runActions (now : Nat) (exec : Scene → PageStep → Scene × Outcome) (d : Dispatch) :
    List Action → Scene → Scene × Outcome
  | [], s => (s, .value .done)
  | a :: rest, s =>
    match runAction now exec d s a with
    | (s, none) => runActions now exec d rest s
    | (s, some p) => (s, .panic p)

/-- Dispatches an event; `exec` takes the steps of the handlers. -/
def dispatchWith (now : Nat) (exec : Scene → PageStep → Scene × Outcome) (s : Scene) (d : Dispatch) :
    Scene × Outcome :=
  match s.page.dispatch d with
  | .error e => (s, .fault (.page e))
  | .ok (page, actions) => runActions now exec d actions { s with page }

def fire (s : Scene) (target : SignalTarget) (event : String) : Scene × Outcome :=
  let (fired, page) := s.page.fire target event
  ({ s with page, notices := s.notices ++ fired.map .fired }, .value (.count fired.length))

def tooDeep : Panic := .said "events are nested too deep"

/-- Takes a step on the page. Dispatches may be nested `depth` deep. -/
def perform (now : Nat) : Nat → Option Nat → Scene → PageStep → Scene × Outcome
  | depth, target, s, step =>
    match step with
    | .add tag id => s.create (.ok (s.page.push none tag id false))
    | .addChild e tag id => s.placed target e fun h => s.create (s.page.insert (some h) tag id false)
    | .addInput id parent =>
      s.underParent target parent fun h => s.create (s.page.insert h "input" id false)
    | .addCheckbox id parent =>
      s.underParent target parent fun h => s.create (s.page.insert h "input" id true)
    | .setDisplay e v => s.placed target e fun h => s.change (s.page.setDisplay h v)
    | .display e => s.placed target e fun h => s.ask (s.page.display h) .text
    | .value e => s.placed target e fun h => s.ask (s.page.value h) .text
    | .setValue e v => s.placed target e fun h => s.change (s.page.setValue h v)
    | .checked e => s.placed target e fun h => s.ask (s.page.checked h) .flag
    | .setChecked e v => s.placed target e fun h => s.change (s.page.setChecked h v)
    | .tag e => s.placed target e fun h => s.ask (s.page.tag h) .text
    | .showHandle e => s.placed target e fun h => (s, .value (.text ("#" ++ toString h)))
    | .remove e => s.placed target e fun h => s.change (s.page.remove h)
    | .query sel => s.ask (s.page.query sel) .handle
    | .on e kind body =>
      s.placed target e fun h =>
        ({ s with
            page := s.page.addHandler h kind (.steps s.handlers body)
            handlers := s.handlers + 1 },
          .value (.count s.handlers))
    | .dispatch e kind bubbles =>
      s.placed target e fun h =>
        match depth with
        | 0 => (s, .panic tooDeep)
        | depth + 1 => dispatchWith now (perform now depth (some h)) s ⟨h, kind, bubbles⟩
    | .dispatched => (s, .value (.events s.page.dispatched))
    | .fire t event => s.fire t event
    | .once t event =>
      let (l, page) := s.page.listen t event
      ({ s with page, slots := s.slots ++ [some l] }, .value (.count s.slots.length))
    | .listener i =>
      let r := s.listenerReport i
      (if r = .fired then s.forget i else s, .value (.listener r))
    | .dropListener i =>
      match s.slots[i]? with
      | some (some l) => ({ s.forget i with page := s.page.dropListener l }, .value .done)
      | _ => (s, .value .done)
    | .panic p => (s, .panic p)

/-- Dispatches a bubbling event on an element, whose handlers may nest dispatches `depth` deep. -/
def bubble (now depth : Nat) (s : Scene) (h : Nat) (kind : String) : Scene × Outcome :=
  dispatchWith now (perform now depth (some h)) s ⟨h, kind, true⟩

/-- Sets the text of a form control as if it were typed. -/
def setText (now depth : Nat) (s : Scene) (h : Nat) (text : String) : Scene × Outcome :=
  match s.page.setValue h text with
  | .error e => (s, .fault (.page e))
  | .ok page => bubble now depth { s with page } h "input"

/-- Turns a checkbox over. -/
def clickCheckbox (now depth : Nat) (s : Scene) (h : Nat) : Scene × Outcome :=
  match s.page.checked h with
  | .error e => (s, .fault (.page e))
  | .ok b =>
    match s.page.setChecked h !b with
    | .error e => (s, .fault (.page e))
    | .ok page => bubble now depth { s with page } h "change"

def click (now depth : Nat) (s : Scene) (h : Nat) : Scene × Outcome := bubble now depth s h "click"

end Scene

end PageTest
