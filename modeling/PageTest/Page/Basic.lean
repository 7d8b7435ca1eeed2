/-! The page under test: an arena of elements with links to their parents. A handle is the place of an
element in the arena, so it is never used again; an element that is removed stays in its place but is no longer
attached. -/

namespace PageTest

/-- Why the page refused. -/
inductive PageError where
  | noMatch (selector : String)
  | unsupported (selector : String)
  | detached (handle : Nat)
  | wrongKind (handle : Nat) (expected : String)
  deriving DecidableEq, Repr

def PageError.message : PageError → String
  | noMatch s => "No element matches selector " ++ s
  | unsupported s => "Unsupported selector: " ++ s
  | detached h => "Element " ++ toString h ++ " is not attached to the frame"
  | wrongKind h expected => "Element " ++ toString h ++ " is not a " ++ expected

structure Element where
  tag : String
  parent : Option Nat
  display : String
  /-- The text of a form control. -/
  value : Option String
  /-- The mark of a checkbox. -/
  checked : Option Bool
  attached : Bool
  deriving DecidableEq, Repr

namespace Element

def displayOf (tag : String) : String :=
  if tag ∈ ["span", "a", "input", "label", "button", "select", "textarea"] then "inline" else "block"

def fresh (tag : String) (parent : Option Nat) (checkbox : Bool) : Element where
  tag := tag
  parent := parent
  display := displayOf tag
  value := if tag ∈ ["input", "textarea", "select"] then some "" else none
  checked := if checkbox then some false else none
  attached := true

end Element

/-- Where the page-wide signals are sent to. -/
inductive SignalTarget where
  | frame | window
  deriving DecidableEq, Repr

inductive ListenerState where
  | waiting
  /-- Completed by a signal. -/
  | fired
  /-- Given up by whoever was listening. -/
  | dropped
  deriving DecidableEq, Repr

/-- A one-time listener for a page-wide signal. -/
structure Listener where
  target : SignalTarget
  event : String
  state : ListenerState
  deriving DecidableEq, Repr

/-- An event as it was dispatched on an element. -/
structure Dispatch where
  target : Nat
  kind : String
  bubbles : Bool
  deriving DecidableEq, Repr

/-- What is done when an event of a kind reaches an element. -/
structure Handler (α : Type) where
  element : Nat
  kind : String
  action : α
  deriving Repr

structure Page (α : Type) where
  elements : List Element
  /-- For each id the element that was last created with it, while that one is attached. -/
  ids : List (String × Nat)
  handlers : List (Handler α)
  listeners : List Listener
  dispatched : List Dispatch
  deriving Repr

namespace Page

variable {α : Type}

def empty : Page α := ⟨[], [], [], [], []⟩

/-- The element of a handle, if it is attached. -/
def get? (p : Page α) (h : Nat) : Option Element := p.elements[h]?.filter (·.attached)

def get (p : Page α) (h : Nat) : Except PageError Element :=
  match p.get? h with
  | some e => .ok e
  | none => .error (.detached h)

def setId (id : String) (h : Nat) : List (String × Nat) → List (String × Nat)
  | [] => [(id, h)]
  | (id', h') :: rest => if id = id' then (id, h) :: rest else (id', h') :: setId id h rest

/-- Adds an element whose parent is known to be attached. An empty id is no id. -/
def push (p : Page α) (parent : Option Nat) (tag id : String) (checkbox : Bool) : Nat × Page α :=
  let h := p.elements.length
  (h, { p with
    elements := p.elements ++ [Element.fresh tag parent checkbox]
    ids := if id = "" then p.ids else setId id h p.ids })

/-- Adds an element at the top or under an attached parent. -/
def insert (p : Page α) (parent : Option Nat) (tag id : String) (checkbox : Bool) :
    Except PageError (Nat × Page α) :=
  match parent with
  | none => .ok (p.push none tag id checkbox)
  | some h =>
    match p.get h with
    | .error e => .error e
    | .ok _ => .ok (p.push (some h) tag id checkbox)

def modify (p : Page α) (h : Nat) (f : Element → Element) : Page α :=
  { p with elements := p.elements.modify h f }

def tag (p : Page α) (h : Nat) : Except PageError String := (p.get h).map (·.tag)

def display (p : Page α) (h : Nat) : Except PageError String := (p.get h).map (·.display)

def setDisplay (p : Page α) (h : Nat) (display : String) : Except PageError (Page α) :=
  (p.get h).map fun _ => p.modify h fun e => { e with display }

def value (p : Page α) (h : Nat) : Except PageError String :=
  match p.get h with
  | .error e => .error e
  | .ok e => match e.value with
    | some v => .ok v
    | none => .error (.wrongKind h "form control")

def setValue (p : Page α) (h : Nat) (value : String) : Except PageError (Page α) :=
  (p.value h).map fun _ => p.modify h fun e => { e with value := some value }

def checked (p : Page α) (h : Nat) : Except PageError Bool :=
  match p.get h with
  | .error e => .error e
  | .ok e => match e.checked with
    | some b => .ok b
    | none => .error (.wrongKind h "checkbox")

def setChecked (p : Page α) (h : Nat) (checked : Bool) : Except PageError (Page α) :=
  (p.checked h).map fun _ => p.modify h fun e => { e with checked := some checked }

/-- Looks an element up by its id; a selector is a number sign and an id. -/
def query (p : Page α) (selector : String) : Except PageError Nat :=
  match selector.toList with
  | '#' :: id =>
    match p.ids.lookup (String.ofList id) with
    | some h => .ok h
    | none => .error (.noMatch selector)
  | _ => .error (.unsupported selector)

/-- The attached elements whose parent is `h`. -/
def attachedChildren (p : Page α) (h : Nat) : List Nat :=
  (List.range p.elements.length).filter fun i =>
    match p.elements[i]? with
    | some e => e.attached && e.parent == some h
    | none => false

/-- Every element of the list, and the attached elements below them, level by level. -/
def subtreeOf (p : Page α) : Nat → List Nat → List Nat
  | 0, _ => []
  | _ + 1, [] => []
  | fuel + 1, h :: rest => h :: subtreeOf p fuel (rest ++ p.attachedChildren h)

/-- An element with all that is attached below it. -/
def subtree (p : Page α) (h : Nat) : List Nat := p.subtreeOf p.elements.length [h]

/-- Detaches an element with all that is below it; ids that led there lead nowhere. -/
def remove (p : Page α) (h : Nat) : Except PageError (Page α) :=
  match p.get h with
  | .error e => .error e
  | .ok _ =>
    let doomed := p.subtree h
    .ok { p with
      elements := p.elements.mapIdx fun i e => if i ∈ doomed then { e with attached := false } else e
      ids := p.ids.filter fun entry => entry.2 ∉ doomed }

end Page

end PageTest
