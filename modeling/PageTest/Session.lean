import PageTest.Machine.Schedule

/-! A session: a list of steps taken one after another by task 0, with an answer for each. A step that takes
too long is given up. -/

namespace PageTest

/-- What a step came to, when, and what ran since the answer before. -/
structure Answer where
  time : Nat
  outcome : Outcome
  trace : List TraceEntry
  deriving Repr

structure Session where
  world : World
  /-- Steps that are still to be taken. -/
  ahead : List Step
  /-- Whether a step is in progress. -/
  busy : Bool
  /-- When the step in progress is given up. -/
  limit : Option Nat
  /-- Answers so far, the last one first. -/
  answers : List Answer

namespace Session

def ofSteps (w : World) (steps : List Step) : Session := ⟨w, steps, false, none, []⟩

/-- Gives an answer and forgets the step. -/
def answer (s : Session) (o : Outcome) : Session :=
  let w := s.world
  { s with
    world := { w with
      scene := { w.scene with trace := [] }
      alarm := none
      tasks := w.tasks.modify 0 fun task => { task with stack := [], returned := none }
      running := none
      mainReady := false }
    busy := false
    limit := none
    answers := ⟨w.now, o, w.scene.trace⟩ :: s.answers }

/-- Starts the next step, which may be over at once. -/
def startStep (su : Setup) (s : Session) (step : Step) (rest : List Step) : Session :=
  let s := { s with ahead := rest }
  match s.world.begin su [] step with
  | (w, .over o) => { s with world := w }.answer o
  | (w, .within f) =>
    let limit := su.patience.map (w.now + ·)
    { s with
      world := { w.modifyTask 0 fun task => { task with stack := [f], returned := none } with
        running := some 0
        alarm := limit }
      busy := true
      limit }

/-- What the step in progress came to, if it is over. -/
def outcome? (s : Session) : Option Outcome :=
  match s.world.task? 0 with
  | some task => if task.stack.isEmpty then task.returned else none
  | none => none

/-- Whether the step in progress has had all its time, and has been looked at a last time. -/
def overdue (s : Session) : Bool :=
  s.world.running.isNone && !s.world.mainReady && s.limit.any (· ≤ s.world.now)

/-- The next thing that happens in a session; nothing does when all steps are answered. -/
def step? (su : Setup) (s : Session) : Option Session :=
  if s.busy then
    match s.outcome? with
    | some o => some (s.answer o)
    | none =>
      if s.overdue then some ({ s with world := s.world.dropStack 0 }.answer (.fault .stalled))
      else (s.world.step? su).map fun world => { s with world }
  else
    match s.ahead with
    | [] => none
    | step :: rest => some (s.startStep su step rest)

/-- Goes on until all steps are answered, or for so many moves. -/
def run (su : Setup) : Nat → Session → Session
  | 0, s => s
  | moves + 1, s =>
    match s.step? su with
    | none => s
    | some s => run su moves s

/-- More moves than any session that ends takes. -/
def moves : Nat := Nat.pow 2 62

/-- The answers to all steps, in order. -/
def answersTo (su : Setup) (w : World) (steps : List Step) : List Answer :=
  (run su moves (ofSteps w steps)).answers.reverse

/-- What a single step comes to. -/
def outcomeOf (su : Setup) (w : World) (step : Step) : Outcome :=
  (((answersTo su w [step]).head?).map (·.outcome)).getD (.fault .stalled)

end Session

end PageTest
