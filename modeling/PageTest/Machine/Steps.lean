import PageTest.Machine.World
import PageTest.Report.Wire

/-! Taking one step of a body. Most steps are over at once; the others put a frame on the stack, and
come to what that frame comes to. -/

namespace PageTest

inductive Begun where
  | over (o : Outcome)
  | within (f : Frame)
  deriving Repr

namespace World

/-- The element that a step of the harness names. Only handlers have an event target. -/
def place (w : World) (found : List Nat) : Place → Except PageError Nat
  | .handle h => .ok h
  | .selector sel => w.scene.page.query sel
  | .target => w.scene.page.query "$target"
  | .found i => .ok (found[i]?.getD Scene.noTarget)

def done : Begun := .over (.value .done)

def reply (r : Reply) : Begun := .over (.value r)

def refuse (e : PageError) : Begun := .over (.fault (.page e))

/-- An input on an element. -/
def input (w : World) (found : List Nat) (e : Place) (act : Scene → Nat → Scene × Outcome) :
    World × Begun :=
  match w.place found e with
  | .error e => (w, refuse e)
  | .ok h =>
    let (s, o) := act w.scene h
    (w.withScene s, .over o)

/-- A check on what the page says about an element. -/
def inspect {β : Type} (w : World) (found : List Nat) (e : Place) (look : Page Action → Nat → Except PageError β)
    (entry : β → LogEntry) : World × Begun :=
  match (w.place found e).bind (look w.scene.page) with
  | .error e => (w, refuse e)
  | .ok b => (w.enter (entry b), done)

def register (w : World) (t : Test) : World × Begun :=
  match w.registry.register t with
  | .error e => (w, .over (.fault (.registry e)))
  | .ok registry => ({ w with registry }, done)

def spawn (w : World) (body : List Step) (after : Nat) : World × Begun :=
  let i := w.handles.length
  let body := Frame.steps (.task i) [] none body
  let (t, w) := w.start (if after = 0 then [body] else [.sleep after, body])
  ({ w with handles := w.handles ++ [some t] }, reply (.count i))

/-- A driver that starts to load a path. The clock cannot show every deadline. -/
def drive (su : Setup) (w : World) (path : String) : Except Panic (World × Frame) :=
  if su.overflows w.now su.driver.timeoutSecs then .error (.said "overflow when adding duration to instant")
  else
    let (t, w) := w.start [.load path .arriving]
    .ok (w, .drive ⟨path, t, w.now, w.now + su.driver.timeoutSecs * 1000, []⟩ (.look false))

/-- Takes a step of the body of some task. -/
def begin (su : Setup) (found : List Nat) (w : World) : Step → World × Begun
  | .page s =>
    let (s, o) := w.scene.perform w.now su.nesting none s
    (w.withScene s, .over o)
  | .find sel => (w, .over (.ofPage .handle (w.scene.page.query sel)))
  | .ok cond msg => (w.enter (Check.ok cond msg), done)
  | .is a b msg => (w.enter (Check.is a b msg), done)
  | .isnot a b msg => (w.enter (Check.isnot a b msg), done)
  | .info msg => (w.enter (Check.info msg), done)
  | .isDisplay e expected msg =>
    w.inspect found e Page.display fun s => Check.is (.text s) (.text expected) msg
  | .isValue e expected msg =>
    w.inspect found e Page.value fun s => Check.is (.text s) (.text expected) msg
  | .okChecked e wanted msg => w.inspect found e Page.checked fun b => Check.ok (b == wanted) msg
  | .append kind msg =>
    match LogKind.ofWord? kind with
    | some k => (w.append k msg, done)
    | none => (w, .over (.fault (.raised (.ofMessage (LogKind.unknown kind)))))
  | .logs =>
    let (es, log) := w.log.drain
    ({ w with log }, reply (.entries es))
  | .logLen => (w, reply (.logSize w.log.length))
  | .setText e text => w.input found e fun s h => s.setText w.now su.nesting h text
  | .clickCheckbox e => w.input found e fun s h => s.clickCheckbox w.now su.nesting h
  | .click e => w.input found e fun s h => s.click w.now su.nesting h
  | .addTest name body early hidden => w.register ⟨name, body, early, hidden⟩
  | .addFunction f => w.register ⟨TestName.ofCallable f.path, [.info f.remark], none, true⟩
  | .reset => ({ w with registry := w.registry.reset }, done)
  | .state => (w, reply (.standing w.registry.state w.registry.tests.length))
  | .config => (w, reply (.config su.driver.harness))
  | .paths => (w, reply (.paths su.catalog.paths))
  | .contains path => (w, reply (.flag (su.catalog.script? path).isSome))
  | .fail c => (w, .over (.fault (.raised c)))
  | .sleep ms => (w, .within (.sleep ms))
  | .yield => (w, .within (.yield false))
  | .waitCond msg p wait =>
    (w, .within (.poll (.predicate p) msg (wait.getD (.ofDefaults su.driver.harness.wait)) 0))
  | .waitShown e msg wait =>
    match w.place found e with
    | .error e => (w, refuse e)
    | .ok h => (w, .within (.poll (.shown h) msg (wait.getD (.ofDefaults su.driver.harness.wait)) 0))
  | .waitLoad => (w, .within (.waitLoad false none))
  | .run =>
    match w.registry.beginRun with
    | .error e => (w, .over (.fault (.registry e)))
    | .ok (tests, registry) => ({ w with registry }, .within (.pass none tests))
  | .load path => (w, .within (.load path .arriving))
  | .spawn body after => w.spawn body after
  | .join i =>
    match w.takeHandle i with
    | (some t, w) => (w, .within (.join t))
    | (none, w) => (w, reply (.task .gone))
  | .abort i =>
    match w.takeHandle i with
    | (some t, w) => (w.cancel t, .within (.join t))
    | (none, w) => (w, reply (.task .gone))
  | .runPath path =>
    match w.drive su path with
    | .error p => (w, .over (.panic p))
    | .ok (w, f) => (w, .within f)
  | .runPaths paths => (w, .within (.driveAll w.now paths []))
  | .writeResults =>
    if su.outputBlocked then (w, .over (.fault .unwritable))
    else (w, reply (.file w.suite.fileText))
  | .attempt s => begin su found w s

end World

end PageTest
