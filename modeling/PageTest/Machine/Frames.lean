import PageTest.Machine.Steps
import PageTest.Text.Quoted

/-! What the frame on top of a stack does when its task has a turn, and what it does when the frame above it
is left. -/

namespace PageTest

/-- What a frame does with the stack. -/
inductive Move where
  /-- Goes on as another frame. -/
  | goOn (f : Frame)
  /-- Goes on with a further frame on top. -/
  | call (f callee : Frame)
  /-- Waits for the next turn. -/
  | halt (f : Frame)
  /-- Is left. -/
  | leave (o : Outcome)
  deriving Repr

namespace Frame

/-! Bodies -/

/-- A fault leaves one remark in scripts and handlers, and two in tests and tasks. -/
def noteFault (w : World) (who : Origin) (s : Step) (f : Fault) : World :=
  match who with
  | .test _ | .task _ => (w.note who (.returned s.name .done)).note who (.raised f)
  | _ => w.note who (.failed s.name f)

/-- The handles looked up so far, after one more reply. -/
def foundAfter (found : List Nat) (s : Step) (r : Reply) : List Nat :=
  match s, r with
  | .find _, .handle h => found ++ [h]
  | _, _ => found

/-- What a body does after one of its steps. -/
def stepOver (w : World) (who : Origin) (found : List Nat) (s : Step) (rest : List Step) :
    Outcome → World × Move
  | .value r => (w.note who (.returned s.name r), .goOn (.steps who (foundAfter found s r) none rest))
  | .fault f =>
    (noteFault w who s f,
      if s.tolerant then .goOn (.steps who found none rest) else .leave (.fault f))
  | .panic p => (w, .leave (.panic p))

def runSteps (su : Setup) (w : World) (who : Origin) (found : List Nat) : List Step → World × Move
  | [] => (w, .leave (.value .done))
  | s :: rest =>
    match w.begin su found s with
    | (w, .over o) => stepOver w who found s rest o
    | (w, .within f) => (w, .call (.steps who found (some s) rest) f)

/-! Waiting. A wait may be over as soon as it begins, as a sleep of no time is. A task whose turn has seen the
end of too many of them stands back first. -/

def runSleep (w : World) (self ms : Nat) : World × Move :=
  if ms = 0 then
    if w.allowance = 0 then (w.standBack self, .halt (.sleep ms)) else (w.spend, .leave (.value .done))
  else (w.setTimer self (w.now + ms), .halt (.pause (w.now + ms)))

def runPause (w : World) (due : Nat) : World × Move :=
  if due ≤ w.now then (w.spend, .leave (.value .done)) else (w, .halt (.pause due))

def runYield (w : World) (self : Nat) (yielded : Bool) : World × Move :=
  if yielded then (w, .leave (.value .done)) else (w.standBack self, .halt (.yield true))

/-- What one look at a condition finds. -/
inductive Look where
  | holds (b : Bool)
  | fault (f : Fault)
  | panic (p : Panic)
  deriving DecidableEq, Repr

def Look.ofPoll : Poll → Look
  | .holds b => .holds b
  | .raises c => .fault (.raised c)
  | .noMatch sel => .fault (.page (.noMatch sel))
  | .panics p => .panic p

def Look.ofPage {β : Type} (test : β → Bool) : Except PageError β → Look
  | .ok b => .holds (test b)
  | .error e => .fault (.page e)

/-- Looks at a condition after `n` looks that found that it does not hold. -/
def lookAt (p : Page Action) (n : Nat) : Condition → Look
  | .shown h => .ofPage (· != "none") (p.display h)
  | .predicate (.sequence polls) => ((polls[n]?.or polls.getLast?).map Look.ofPoll).getD (.holds false)
  | .predicate (.checked sel) => .ofPage id ((p.query sel).bind p.checked)
  | .predicate (.valueIs sel value) => .ofPage (· == value) ((p.query sel).bind p.value)

/-- A condition on an element is not asked how often it was looked at. -/
def pollReply (c : Condition) (polls : Nat) : Reply :=
  match c with
  | .shown _ => .done
  | .predicate _ => .polls polls

def timedOut (msg : String) (tries : Nat) : String :=
  msg ++ " - timed out after " ++ toString tries ++ " tries."

/-- Looks at a condition, unless it has been looked at often enough; sleeps between two looks. -/
def runPoll (w : World) (c : Condition) (msg : String) (wait : WaitOptions) (polls : Nat) : World × Move :=
  if wait.maxTries ≤ polls then
    (w.append .fail (timedOut msg wait.maxTries), .leave (.value (pollReply c polls)))
  else
    match lookAt w.scene.page polls c with
    | .fault f => (w, .leave (.fault f))
    | .panic p => (w, .leave (.panic p))
    | .holds true => (w.append .pass msg, .leave (.value (pollReply c (polls + 1))))
    | .holds false =>
      if polls + 1 < wait.maxTries then
        (w, .call (.poll c msg wait (polls + 1)) (.sleep wait.pause))
      else (w, .goOn (.poll c msg wait (polls + 1)))

/-- Listens for the page to load, and after that for it to be shown. -/
def runWaitLoad (su : Setup) (w : World) (loaded : Bool) : Option Nat → World × Move
  | none =>
    if su.deaf then (w, .halt (.waitLoad loaded none))
    else
      let (l, page) := if loaded then w.scene.page.listen .window "pageshow"
        else w.scene.page.listen .frame "load"
      ({ w with scene := { w.scene with page } }, .goOn (.waitLoad loaded (some l)))
  | some l =>
    if w.scene.page.listenerState l = some .fired then
      let w := w.spend
      if loaded then (w.append .info "Page shown", .leave (.value .done))
      else (w.append .info "Frame loaded, waiting for pageshow", .goOn (.waitLoad true none))
    else (w, .halt (.waitLoad loaded (some l)))

def runJoin (w : World) (self task : Nat) : World × Move :=
  match w.ended? task with
  | some how =>
    if w.allowance = 0 then (w.standBack self, .halt (.join task))
    else (w.spend, .leave (.value (.task how)))
  | none => (w.waitFor self task, .halt (.join task))

/-! Run passes -/

/-- How a test failed. -/
structure Failure where
  message : String
  stack : String
  deriving DecidableEq, Repr

def Failure.ofFault (f : Fault) : Failure := ⟨f.cause.summary, f.cause.stack⟩

def Failure.ofPanic (test : String) (p : Panic) : Failure :=
  ⟨p.text, "panicked in test " ++ Text.quoted test ++ ": " ++ p.text⟩

/-- A pass is over: whatever was still queued is dropped. -/
def finish (w : World) (outcome : RunState) : World × Move :=
  ({ w with registry := w.registry.finish outcome }, .leave (.value (.state outcome)))

def abortPass (w : World) (f : Failure) : World × Move :=
  finish ((w.append .fail f.message).append .stack f.stack) .aborted

/-- Starts the next test. -/
def runPass (w : World) : List Test → World × Move
  | [] => finish w .completed
  | t :: queue =>
    let w := (w.append .subtest t.name).append .info (Subtest.entering t.name)
    match t.early with
    | some p => abortPass w (.ofPanic t.name p)
    | none =>
      (w, .call (.pass (some t) queue)
        (.steps (if t.hidden then .hidden else .test t.name) [] none t.body))

def resumePass (w : World) (t : Test) (queue : List Test) : Outcome → World × Move
  | .value _ => (w.append .info (Subtest.leaving t.name), .goOn (.pass none queue))
  | .fault f => abortPass w (.ofFault f)
  | .panic p => abortPass w (.ofPanic t.name p)

/-! Loads -/

def unsupportedPath (path : String) : String := "Unsupported test path " ++ path

def noSuchScript (path : String) : String := "Failed to load " ++ path ++ ": no such script"

def scriptError (path reason : String) : String := "Error while loading " ++ path ++ ": " ++ reason

/-- A load is over. -/
def leaveLoad (w : World) (ticket : Nat) (o : Outcome) : World × Move := (w.leaveLock ticket, .leave o)

/-- A load that failed has an entry for the reason, and no end marker. -/
def failLoad (w : World) (ticket : Nat) (reason : String) : World × Move :=
  leaveLoad (w.append .fail reason) ticket (.value .done)

def startsWith (path start : String) : Bool := start.toList.isPrefixOf path.toList

def runLoad (su : Setup) (w : World) (self : Nat) (path : String) : LoadPhase → World × Move
  | .arriving =>
    if w.allowance = 0 then (w.standBack self, .halt (.load path .arriving))
    else
      let (ticket, lock) := w.lock.arrive self
      ({ w with lock }, .goOn (.load path (.queueing ticket)))
  | .queueing ticket =>
    if w.lock.holder = some ticket then (w.spend, .goOn (.load path (.entered ticket)))
    else (w, .halt (.load path (.queueing ticket)))
  | .entered ticket =>
    if startsWith path su.driver.harness.pathStart then
      let w := { w with registry := w.registry.reset }.append .testStart path
      if su.loader.delayMs = 0 then (w, .goOn (.load path (.loading ticket)))
      else (w, .call (.load path (.loading ticket)) (.sleep su.loader.delayMs))
    else failLoad w ticket (unsupportedPath path)
  | .loading ticket =>
    if su.loader.panicOn = some path then leaveLoad w ticket (.panic (.said "loader panicked"))
    else
      match su.catalog.script? path with
      | none => failLoad w ticket (noSuchScript path)
      | some s =>
        (w, .call (.load path (.registering ticket))
          (.steps (if s.hidden then .hidden else .script path) [] none s.body))
  | .registering ticket =>
    match w.registry.beginRun with
    | .ok (tests, registry) =>
      ({ w with registry }, .call (.load path (.running ticket)) (.pass none tests))
    | .error e => (w.append .fail e.message, .goOn (.load path (.running ticket)))
  | .running ticket => leaveLoad (w.append .testEnd path) ticket (.value .done)

/-- What a load does when its sleep, its script or its run pass is over. -/
def resumeLoad (w : World) (path : String) (phase : LoadPhase) (o : Outcome) : World × Move :=
  match phase, o with
  | .registering ticket, .fault f => failLoad w ticket (scriptError path f.cause.summary)
  | .registering ticket, .panic p => failLoad w ticket (scriptError path ("panicked: " ++ p.text))
  | phase, .value _ => (w, .goOn (.load path phase))
  | phase, o =>
    match World.ticketOf phase with
    | some ticket => leaveLoad w ticket o
    | none => (w, .leave o)

/-! Drivers -/

def reportOf (su : Setup) (w : World) (d : Drive) (timedOut : Bool) : RunReport :=
  .ofLogs d.path d.logs timedOut (su.timeAt d.start) (w.now - d.start)

/-- Drains the log into what the driver has. -/
def drainInto (w : World) (d : Drive) : World × Drive :=
  let (es, log) := w.log.drain
  ({ w with log }, { d with logs := d.logs ++ es })

/-- The load has returned; a panic of it is a fault of the driver. -/
def joined (w : World) (d : Drive) (how : TaskReport) : World × Move :=
  if how = .done then (w.spend, .goOn (.drive d (.look true))) else (w, .leave (.fault .loadPanicked))

def runDrive (su : Setup) (w : World) (self : Nat) (d : Drive) : DrivePhase → World × Move
  | .look finished =>
    let ended := w.log.waiting.contains ⟨.testEnd, d.path⟩
    let (w, d) := drainInto w d
    if finished then (w, .leave (.value (.report (reportOf su w d false))))
    else if ended then (w.waitFor self d.load, .goOn (.drive d .settling))
    else if d.deadline ≤ w.now then
      ((w.cancel d.load).waitFor self d.load, .goOn (.drive d .stopping))
    else
      match w.ended? d.load with
      | some how => joined w d how
      | none =>
        let w := w.waitFor self d.load
        if su.driver.pollIntervalMs = 0 then (w.standBack self, .halt (.drive d (.watch w.now)))
        else
          let due := w.now + su.driver.pollIntervalMs
          (w.setTimer self due, .halt (.drive d (.watch due)))
  | .watch due =>
    match w.ended? d.load with
    | some how =>
      -- The sleep may be over as well, and then either is gone by.
      if due ≤ w.now ∧ su.looksFirst d.load = true then (w.spend, .goOn (.drive d (.look false)))
      else joined (w.clearTimer self) d how
    | none =>
      if due ≤ w.now then (w.spend, .goOn (.drive d (.look false)))
      else (w, .halt (.drive d (.watch due)))
  | .settling =>
    match w.ended? d.load with
    | some .done => (w.spend, .leave (.value (.report (reportOf su w d false))))
    | some _ => (w, .leave (.fault .loadPanicked))
    | none => (w, .halt (.drive d .settling))
  | .stopping =>
    match w.ended? d.load with
    | some .panicked => (w, .leave (.fault .loadPanicked))
    | some _ =>
      let (w, d) := drainInto w.spend d
      (w, .leave (.value (.report (reportOf su w d true))))
    | none => (w, .halt (.drive d .stopping))

def runDriveAll (su : Setup) (w : World) (start : Nat) (results : List RunReport) : List String → World × Move
  | [] =>
    let suite := SuiteReport.ofResults results (w.now - start)
    ({ w with suite }, .leave (.value (.suite suite)))
  | path :: rest =>
    match w.drive su path with
    | .error p => (w, .leave (.panic p))
    | .ok (w, f) => (w, .call (.driveAll start rest results) f)

/-! All frames -/

/-- What the frame on top does with its turn. -/
def run (su : Setup) (w : World) (self : Nat) : Frame → World × Move
  | .steps who found _ rest => runSteps su w who found rest
  | .sleep ms => runSleep w self ms
  | .pause due => runPause w due
  | .yield yielded => runYield w self yielded
  | .poll c msg wait polls => runPoll w c msg wait polls
  | .waitLoad loaded l => runWaitLoad su w loaded l
  | .load path phase => runLoad su w self path phase
  | .pass _ queue => runPass w queue
  | .join task => runJoin w self task
  | .drive d phase => runDrive su w self d phase
  | .driveAll start rest results => runDriveAll su w start results rest

/-- What a frame does with the outcome of the frame that was above it. -/
def resume (w : World) (f : Frame) (o : Outcome) : World × Move :=
  match f, o with
  | .steps who found (some s) rest, o => stepOver w who found s rest o
  | .pass (some t) queue, o => resumePass w t queue o
  | .load path phase, o => resumeLoad w path phase o
  | .driveAll start rest results, .value (.report r) => (w, .goOn (.driveAll start rest (results ++ [r])))
  | f@(.steps _ _ none _), .value _ => (w, .goOn f)
  | f@(.poll ..), .value _ => (w, .goOn f)
  | _, o => (w, .leave o)

end Frame

end PageTest
