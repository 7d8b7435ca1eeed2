import PageTest.Machine.Frames

/-! Turns. The task that runs keeps its turn until it waits for something; then the task that has been ready
longest has its turn. When nobody is ready, a new round begins: those that stood back are ready again, or
else the clock goes straight to the next timer. If task 0 is among those woken by then, it has the first
turn of the round. -/

namespace PageTest.World

/-- Puts a frame's move into effect on the rest of the stack. -/
def apply (w : World) (t : Nat) (rest : List Frame) : Move → World
  | .goOn f => w.modifyTask t fun task => { task with stack := f :: rest, returned := none }
  | .call f callee =>
    w.modifyTask t fun task => { task with stack := callee :: f :: rest, returned := none }
  | .leave o => w.modifyTask t fun task => { task with stack := rest, returned := some o }
  | .halt f =>
    let w := w.modifyTask t fun task => { task with stack := f :: rest, returned := none }
    let w := { w with running := none }
    if ((w.task? t).map (·.cancelled)).getD false then w.cancelNow t else w

def reportOf : Outcome → TaskReport
  | .value _ => .done
  | .fault _ => .failed
  | .panic _ => .panicked

/-- One move of the task that runs. Task 0 does not end: it keeps what its step came to. -/
def runTask (su : Setup) (w : World) (t : Nat) : World :=
  match w.task? t with
  | none => { w with running := none }
  | some task =>
    match task.stack, task.returned with
    | f :: rest, none =>
      let (w, m) := f.run su w t
      w.apply t rest m
    | f :: rest, some o =>
      let (w, m) := f.resume w o
      w.apply t rest m
    | [], returned =>
      let w := { w with running := none }
      if t = 0 then w else w.endTask t (reportOf (returned.getD (.value .done)))

/-- A turn begins with a full allowance. -/
def giveTurn (w : World) (t : Nat) : World := { w with running := some t, allowance := fullAllowance }

/-- Gives the turn to a task, or ends it if that was asked for. -/
def turn (w : World) (t : Nat) : World :=
  match w.task? t with
  | none => w
  | some task =>
    if task.ended.isSome then w
    else if task.cancelled then w.cancelNow t
    else w.giveTurn t

/-- When the next timer or alarm is due. -/
def nextDue (w : World) : Option Nat := ((w.timers.map (·.1)) ++ w.alarm.toList).min?

/-- Moves the clock on and wakes all whose timers are due. -/
def advanceTo (w : World) (due : Nat) : World :=
  let woken := (w.timers.filter (·.1 ≤ due)).map (·.2)
  let w := { w with now := max w.now due, timers := w.timers.filter (due < ·.1) }.wakeAll woken
  match w.alarm with
  | some alarm => if alarm ≤ due then { w with alarm := none, mainReady := true } else w
  | none => w

/-- Begins a round when nobody is ready. -/
def nextRound? (w : World) : Option World :=
  let woken := if w.mainReady || !w.yielding.isEmpty then some w.wakeYielding else w.nextDue.map w.advanceTo
  woken.map fun w => if w.mainReady then { w with mainReady := false }.giveTurn 0 else w

/-- The next thing that happens, if anything can. -/
def step? (su : Setup) (w : World) : Option World :=
  match w.running with
  | some t => some (w.runTask su t)
  | none =>
    match w.ready with
    | t :: rest => some ({ w with ready := rest }.turn t)
    | [] => w.nextRound?

end PageTest.World
