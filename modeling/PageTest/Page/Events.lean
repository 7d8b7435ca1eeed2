import PageTest.Page.Basic

/-! Events and signals. An event is recorded and reaches its target and, if it bubbles, the ancestors of the target
from the nearest to the root; a signal completes every listener that waits for it. -/

namespace PageTest.Page

variable {α : Type}

/-- The parent link of an element, attached or not. -/
def parentOf (p : Page α) (h : Nat) : Option Nat := p.elements[h]?.bind (·.parent)

/-- The ancestors of an element, the nearest first; no walk is longer than the number of elements. -/
def ancestorsWithin (p : Page α) : Nat → Nat → List Nat
  | 0, _ => []
  | fuel + 1, h =>
    match p.parentOf h with
    | none => []
    | some parent => parent :: ancestorsWithin p fuel parent

def ancestors (p : Page α) (h : Nat) : List Nat := p.ancestorsWithin p.elements.length h

/-- The elements an event reaches, in order. -/
def eventPath (p : Page α) (h : Nat) (bubbles : Bool) : List Nat :=
  h :: if bubbles then p.ancestors h else []

/-- The actions registered for a kind of event on one element, in the order of registration. -/
def actionsOn (p : Page α) (kind : String) (h : Nat) : List α :=
  (p.handlers.filter fun r => r.element == h && r.kind == kind).map (·.action)

def addHandler (p : Page α) (h : Nat) (kind : String) (action : α) : Page α :=
  { p with handlers := p.handlers ++ [⟨h, kind, action⟩] }

/-- Records an event on an attached element and gives the actions it causes, in order. What they
do to the page does not change which they are. -/
def dispatch (p : Page α) (d : Dispatch) : Except PageError (Page α × List α) :=
  match p.get d.target with
  | .error e => .error e
  | .ok _ =>
    .ok ({ p with dispatched := p.dispatched ++ [d] },
      (p.eventPath d.target d.bubbles).flatMap (p.actionsOn d.kind))

/-- Starts listening. -/
def listen (p : Page α) (target : SignalTarget) (event : String) : Nat × Page α :=
  (p.listeners.length, { p with listeners := p.listeners ++ [⟨target, event, .waiting⟩] })

def isCalled (target : SignalTarget) (event : String) (l : Listener) : Bool :=
  l.state == .waiting && l.target == target && l.event == event

/-- Completes every listener that waits for the signal and gives their places, oldest first. -/
def fire (p : Page α) (target : SignalTarget) (event : String) : List Nat × Page α :=
  ((List.range p.listeners.length).filter fun i =>
      match p.listeners[i]? with
      | some l => isCalled target event l
      | none => false,
    { p with listeners := p.listeners.map fun l =>
        if isCalled target event l then { l with state := .fired } else l })

def listenerState (p : Page α) (i : Nat) : Option ListenerState := p.listeners[i]?.map (·.state)

/-- Gives up a listener; one that is complete stays so. -/
def dropListener (p : Page α) (i : Nat) : Page α :=
  { p with listeners := p.listeners.modify i fun l =>
      if l.state = .waiting then { l with state := .dropped } else l }

end PageTest.Page
