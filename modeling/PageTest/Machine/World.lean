import PageTest.Scene

/-! The state of a session: tasks that take turns, a virtual clock, the log, the registry, the page and the
lock that lets one load through at a time. A task is a stack of frames, the innermost first; each
frame is something the task is in the middle of. -/

namespace PageTest

/-- What loads scripts: it may take its time, and panic over one of them. -/
structure Loader where
  delayMs : Nat
  panicOn : Option String
  deriving DecidableEq, Repr

/-- What does not change during a session. -/
structure Setup where
  driver : DriverConfig
  catalog : Catalog
  loader : Loader
  /-- The harness listens in vain: no signal ever reaches it. -/
  deaf : Bool
  /-- The output directory cannot be made. -/
  outputBlocked : Bool
  /-- The time of day at the start. -/
  epoch : Timestamp
  /-- The seconds that the monotonic clock shows at the start. -/
  clockSecs : Nat
  /-- How long a step of a session may take, in virtual milliseconds. -/
  patience : Option Nat
  /-- How many dispatches of events may be under way at once, each inside a handler of the one before. -/
  nesting : Nat := 1000
  /-- Whether a driver whose load has ended when its sleep is over goes by the sleep, for each load by its task.
  Both are ready then, and either may be taken. -/
  looksFirst : Nat → Bool := fun _ => false

namespace Setup

/-- The time of day some milliseconds after the start. -/
def timeAt (su : Setup) (ms : Nat) : Timestamp :=
  let nanos := su.epoch.nanos + ms % 1000 * 1000000
  ⟨su.epoch.seconds + (ms / 1000 : Nat) + (nanos / 1000000000 : Nat), nanos % 1000000000⟩

/-- The greatest number of seconds the monotonic clock can show. -/
def lastSecond : Nat := Nat.pow 2 63 - 1

/-- Whether an instant so many seconds after `now` is beyond the clock. -/
def overflows (su : Setup) (now secs : Nat) : Bool := lastSecond < su.clockSecs + now / 1000 + secs

end Setup

/-- A lock handed on in the order of arrival. Each arrival draws a ticket, and the lock remembers whose
turn it is and who is queueing. -/
structure Lock where
  holder : Option Nat
  /-- Tickets with the tasks that drew them, the next to be served first. -/
  queue : List (Nat × Nat)
  tickets : Nat
  deriving DecidableEq, Repr

namespace Lock

def free : Lock := ⟨none, [], 0⟩

/-- Draws a ticket; it is served at once if the lock is free. -/
def arrive (l : Lock) (task : Nat) : Nat × Lock :=
  match l.holder with
  | none => (l.tickets, { l with holder := some l.tickets, tickets := l.tickets + 1 })
  | some _ => (l.tickets, { l with queue := l.queue ++ [(l.tickets, task)], tickets := l.tickets + 1 })

/-- Hands the lock on; gives the task that has it now. -/
def release (l : Lock) : Option Nat × Lock :=
  match l.queue with
  | [] => (none, { l with holder := none })
  | (ticket, task) :: rest => (some task, { l with holder := some ticket, queue := rest })

/-- Gives a ticket back, served or not. -/
def leave (l : Lock) (ticket : Nat) : Option Nat × Lock :=
  if l.holder = some ticket then l.release
  else (none, { l with queue := l.queue.filter (·.1 ≠ ticket) })

end Lock

inductive Condition where
  | predicate (p : Predicate)
  | shown (h : Nat)
  deriving DecidableEq, Repr

/-- How far a load has come. -/
inductive LoadPhase where
  | arriving
  | queueing (ticket : Nat)
  | entered (ticket : Nat)
  | loading (ticket : Nat)
  | registering (ticket : Nat)
  | running (ticket : Nat)
  deriving DecidableEq, Repr

/-- A driver watching one load. -/
structure Drive where
  path : String
  load : Nat
  start : Nat
  deadline : Nat
  /-- What it has drained so far. -/
  logs : List LogEntry
  deriving DecidableEq, Repr

inductive DrivePhase where
  /-- About to drain the log, perhaps after the load is known to be over. -/
  | look (finished : Bool)
  /-- Between two looks; the next one is due at the given time. -/
  | watch (due : Nat)
  /-- The load's end marker was seen; the load is about to return. -/
  | settling
  /-- The time is over and the load is being cancelled. -/
  | stopping
  deriving DecidableEq, Repr

inductive Frame where
  /-- A body: the step in progress, and those still to take. -/
  | steps (who : Origin) (found : List Nat) (current : Option Step) (rest : List Step)
  | sleep (ms : Nat)
  | pause (due : Nat)
  | yield (yielded : Bool)
  /-- Polling a condition; `polls` looks have found that it does not hold. -/
  | poll (c : Condition) (msg : String) (wait : WaitOptions) (polls : Nat)
  /-- Waiting for a page to load and then to be shown. -/
  | waitLoad (loaded : Bool) (listener : Option Nat)
  | load (path : String) (phase : LoadPhase)
  /-- A run pass: the test in progress, and those still to start. -/
  | pass (current : Option Test) (queue : List Test)
  | join (task : Nat)
  | drive (d : Drive) (phase : DrivePhase)
  | driveAll (start : Nat) (rest : List String) (results : List RunReport)
  deriving Repr

structure Task where
  stack : List Frame
  /-- What the last frame to be left came to, until the one below it takes it up. -/
  returned : Option Outcome
  ended : Option TaskReport
  cancelled : Bool
  /-- The task that waits for this one. -/
  waiter : Option Nat
  deriving Repr

def Task.start (stack : List Frame) : Task := ⟨stack, none, none, false, none⟩

/-- A moment of a session. Task 0 takes the steps of the session itself; it has its turn when no other
task is ready, as the first of a new round. -/
structure World where
  now : Nat
  log : Log
  registry : Registry Test
  scene : Scene
  lock : Lock
  tasks : List Task
  running : Option Nat
  /-- How many more waits the turn may see the end of. -/
  allowance : Nat
  /-- Tasks that want a turn, in order. -/
  ready : List Nat
  mainReady : Bool
  /-- Tasks that stand back until nobody is ready, the last one to do so first. -/
  yielding : List Nat
  timers : List (Nat × Nat)
  /-- When task 0 is to look up, whatever it waits for. -/
  alarm : Option Nat
  /-- The tasks that can be waited for, by number. -/
  handles : List (Option Nat)
  suite : SuiteReport
  deriving Repr

namespace World

/-- How many waits a turn may see the end of. -/
def fullAllowance : Nat := 128

def ofPage (p : Page Action) : World where
  now := 0
  log := .empty
  registry := .empty
  scene := .ofPage p
  lock := .free
  tasks := [.start []]
  running := none
  allowance := fullAllowance
  ready := []
  mainReady := false
  yielding := []
  timers := []
  alarm := none
  handles := []
  suite := .ofResults [] 0

def append (w : World) (kind : LogKind) (msg : String) : World := { w with log := w.log.append ⟨kind, msg⟩ }

def enter (w : World) (e : LogEntry) : World := { w with log := w.log.append e }

/-- Gives a task a turn. -/
def wake (w : World) (t : Nat) : World :=
  if t = 0 then { w with mainReady := true }
  else if t ∈ w.ready then w
  else { w with ready := w.ready ++ [t] }

def wakeAll (w : World) (ts : List Nat) : World := ts.foldl wake w

/-- Has seen the end of a wait. -/
def spend (w : World) : World := { w with allowance := w.allowance - 1 }

/-- Has a task stand back for all that are ready. -/
def standBack (w : World) (t : Nat) : World := { w with yielding := t :: w.yielding }

/-- Gives a turn to all tasks that stood back, the last one first. -/
def wakeYielding (w : World) : World := { w with yielding := [] }.wakeAll w.yielding

def wake? (w : World) : Option Nat → World
  | none => w
  | some t => w.wake t

def task? (w : World) (t : Nat) : Option Task := w.tasks[t]?

def modifyTask (w : World) (t : Nat) (f : Task → Task) : World := { w with tasks := w.tasks.modify t f }

/-- Starts a task; it has its first turn after those that are ready. -/
def start (w : World) (stack : List Frame) : Nat × World :=
  let t := w.tasks.length
  (t, { w with tasks := w.tasks ++ [.start stack], ready := w.ready ++ [t] })

def setTimer (w : World) (t due : Nat) : World :=
  { w with timers := w.timers.filter (·.2 ≠ t) ++ [(due, t)] }

def clearTimer (w : World) (t : Nat) : World := { w with timers := w.timers.filter (·.2 ≠ t) }

/-- Whether a task waits for a listener. -/
def awaits (l : Nat) (t : Task) : Bool :=
  match t.stack with
  | .waitLoad _ (some l') :: _ => l == l'
  | _ => false

/-- The signals of a frame that navigates: the page is loaded after a while, and then shown. -/
def navigation : List Frame :=
  [.steps .hidden [] none [.sleep 20, .page (.fire .frame "load"), .sleep 5,
    .page (.fire .window "pageshow")]]

def tell (w : World) : Notice → World
  | .fired l => w.wake? (w.tasks.findIdx? (awaits l))
  | .navigated => (w.start navigation).2

/-- Takes over the page after a step on it. -/
def withScene (w : World) (s : Scene) : World :=
  s.notices.foldl tell { w with scene := { s with notices := [] } }

def note (w : World) (who : Origin) (what : Remark) : World :=
  { w with scene := w.scene.note w.now who what }

/-- Gives up a ticket for the load lock. -/
def leaveLock (w : World) (ticket : Nat) : World :=
  let (next, lock) := w.lock.leave ticket
  { w with lock }.wake? next

def ticketOf : LoadPhase → Option Nat
  | .arriving => none
  | .queueing t | .entered t | .loading t | .registering t | .running t => some t

/-- What becomes of the things that a frame holds when it is given up. -/
def dropFrame (w : World) : Frame → World
  | .load _ phase =>
    match ticketOf phase with
    | some ticket => w.leaveLock ticket
    | none => w
  | .waitLoad _ (some l) => { w with scene := { w.scene with page := w.scene.page.dropListener l } }
  | _ => w

/-- Ends a task and wakes the one that waits for it. -/
def endTask (w : World) (t : Nat) (how : TaskReport) : World :=
  let waiter := (w.task? t).bind (·.waiter)
  (w.modifyTask t fun task => { task with stack := [], returned := none, ended := some how }).wake? waiter

/-- Gives up all that a task is in the middle of, the innermost first. -/
def dropStack (w : World) (t : Nat) : World :=
  let stack := ((w.task? t).map (·.stack)).getD []
  let w := stack.foldl dropFrame (w.clearTimer t)
  w.modifyTask t fun task => { task with stack := [], returned := none }

def cancelNow (w : World) (t : Nat) : World := (w.dropStack t).endTask t .cancelled

/-- Asks a task to end. It does so when it has its next turn. -/
def cancel (w : World) (t : Nat) : World :=
  match w.task? t with
  | some task =>
    if task.ended.isSome then w
    else (w.modifyTask t fun task => { task with cancelled := true }).wake t
  | none => w

/-- How a task ended, if it has. -/
def ended? (w : World) (t : Nat) : Option TaskReport := (w.task? t).bind (·.ended)

/-- Has a task woken when another one ends. -/
def waitFor (w : World) (t other : Nat) : World :=
  w.modifyTask other fun task => { task with waiter := some t }

/-- Takes the task with a number out of the table of those that can be waited for. -/
def takeHandle (w : World) (i : Nat) : Option Nat × World :=
  match w.handles[i]? with
  | some (some t) => (some t, { w with handles := w.handles.set i none })
  | _ => (none, w)

end World

end PageTest
