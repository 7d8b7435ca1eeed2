import PageTest.Proofs.Forward.Leads

/-! What becomes of a body, a run pass and a load that do not wait. -/

namespace PageTest

open World

/-- The page shows something else. -/
def Desk.turnTo (d : Desk) (p : Page Action) : Desk := { d with page := p }

theorem Log.appendAll_appendAll (l : Log) (es es' : List LogEntry) :
    (l.appendAll es).appendAll es' = l.appendAll (es ++ es') := by
  simp [appendAll]

namespace Desk

theorem write_write (d : Desk) (es es' : List LogEntry) : (d.write es).write es' = d.write (es ++ es') := by
  simp only [write, Log.appendAll_appendAll]

theorem write_turnTo (d : Desk) (p : Page Action) (es : List LogEntry) :
    (d.turnTo p).write es = (d.write es).turnTo p := rfl

end Desk

/-- The step is over at once, and this is what comes of it. -/
def Step.Does (su : Setup) (found : List Nat) (s : Step) (d d' : Desk) (r : Reply) : Prop :=
  ∀ (w : World) (t : Nat) (stack : List Frame), w.scene.notices = [] →
    (w.working t d stack none).begin su found s = (w.working t d' stack none, .over (.value r))

variable {su : Setup} {w w' : World} {t h i : Nat} {d d' : Desk} {found : List Nat} {s : Step} {steps : List Step}
variable {r : Reply} {f : Fault} {below : List Frame} {cur : Option Step}

/-! Steps -/

section Steps

theorem does_find {sel : String} (hq : d.page.query sel = .ok h) : (Step.find sel).Does su found d d (.handle h) := by
  intro w t stack _
  have hq' : (w.working t d stack none).scene.page.query sel = .ok h := hq
  rw [World.begin, hq']
  rfl

theorem does_ok (cond : Bool) (msg : String) :
    (Step.ok cond msg).Does su found d (d.write [Check.ok cond msg]) .done := fun _ _ _ _ => rfl

theorem does_is (a b : Operand) (msg : String) :
    (Step.is a b msg).Does su found d (d.write [Check.is a b msg]) .done := fun _ _ _ _ => rfl

theorem does_isnot (a b : Operand) (msg : String) :
    (Step.isnot a b msg).Does su found d (d.write [Check.isnot a b msg]) .done := fun _ _ _ _ => rfl

theorem does_info (msg : String) :
    (Step.info msg).Does su found d (d.write [Check.info msg]) .done := fun _ _ _ _ => rfl

theorem inspect_found {β : Type} {look : Page Action → Nat → Except PageError β} {b : β} (hf : found[i]? = some h)
    (hb : look d.page h = .ok b) (entry : β → LogEntry) (w : World) (t : Nat) (stack : List Frame) :
    (w.working t d stack none).inspect found (.found i) look entry =
      (w.working t (d.write [entry b]) stack none, done) := by
  have hb' : look (w.working t d stack none).scene.page h = .ok b := hb
  simp only [inspect, place, hf, Option.getD_some, Except.bind, hb']
  rfl

theorem does_isDisplay {v : String} (hf : found[i]? = some h) (hv : d.page.display h = .ok v) (expected msg : String) :
    (Step.isDisplay (.found i) expected msg).Does su found d
      (d.write [Check.is (.text v) (.text expected) msg]) .done := fun w t stack _ => inspect_found hf hv _ w t stack

theorem does_isValue {v : String} (hf : found[i]? = some h) (hv : d.page.value h = .ok v) (expected msg : String) :
    (Step.isValue (.found i) expected msg).Does su found d
      (d.write [Check.is (.text v) (.text expected) msg]) .done := fun w t stack _ => inspect_found hf hv _ w t stack

theorem does_okChecked {b : Bool} (hf : found[i]? = some h) (hv : d.page.checked h = .ok b) (wanted : Bool)
    (msg : String) : (Step.okChecked (.found i) wanted msg).Does su found d (d.write [Check.ok (b == wanted) msg]) .done :=
  fun w t stack _ => inspect_found hf hv _ w t stack

/-- An input that nobody has to be told about. -/
theorem input_found {act : Scene → Nat → Scene × Outcome} {p : Page Action} (hf : found[i]? = some h)
    (ha : ∀ sc : Scene, sc.page = d.page → act sc h = ({ sc with page := p }, .value .done))
    (hn : w.scene.notices = []) (stack : List Frame) : (w.working t d stack none).input found (.found i) act =
      (w.working t (d.turnTo p) stack none, .over (.value .done)) := by
  have ha' := ha (w.working t d stack none).scene rfl
  simp only [input, place, hf, Option.getD_some, ha']
  have hw : (w.working t d stack none).withScene { (w.working t d stack none).scene with page := p } =
      w.working t (d.turnTo p) stack none := by
    have hs : ({ w.scene with page := p, notices := [] } : Scene) = { w.scene with page := p } := by
      rw [← hn]
    show List.foldl tell _ w.scene.notices = _
    rw [hn, List.foldl_nil]
    exact congrArg (fun sc : Scene => { w.working t d stack none with scene := sc }) hs
  rw [hw]

end Steps

namespace World.Engaged

/-- The body goes on. -/
theorem step (hw : w.Engaged t) (hn : w.scene.notices = []) (h : s.Does su found d d' r) :
    (w.working t d (.steps .hidden found cur (s :: steps) :: below) none).Leads su
      (w.working t d' (.steps .hidden (Frame.foundAfter found s r) none steps :: below) none) := by
  refine hw.goOn ?_
  show Frame.runSteps su _ .hidden found (s :: steps) = _
  rw [Frame.runSteps, h w t _ hn]
  rfl

/-- The step waits. -/
theorem begins {g : Frame} (hw : w.Engaged t) (h : ∀ stack, (w.working t d stack none).begin su found s =
      (w.working t d stack none, .within g)) :
    (w.working t d (.steps .hidden found cur (s :: steps) :: below) none).Leads su
      (w.working t d (g :: .steps .hidden found (some s) steps :: below) none) := by
  refine hw.call ?_
  show Frame.runSteps su _ .hidden found (s :: steps) = _
  rw [Frame.runSteps, h]

/-- The step has waited. -/
theorem resumes (hw : w.Engaged t) :
    (w.working t d (.steps .hidden found (some s) steps :: below) (some (.value r))).Leads su
      (w.working t d (.steps .hidden (Frame.foundAfter found s r) none steps :: below) none) := by
  refine hw.goOn ?_
  rfl

/-- A fault ends the body. -/
theorem fails (hw : w.Engaged t) (hs : s.tolerant = false) (h : ∀ stack, (w.working t d stack none).begin su found s =
      (w.working t d stack none, .over (.fault f))) :
    (w.working t d (.steps .hidden found cur (s :: steps) :: below) none).Leads su
      (w.working t d below (some (.fault f))) := by
  refine hw.leave ?_
  show Frame.runSteps su _ .hidden found (s :: steps) = _
  rw [Frame.runSteps, h]
  simp only [Frame.stepOver, hs]
  rfl

/-- The body is over. -/
theorem finishes (hw : w.Engaged t) : (w.working t d (.steps .hidden found cur [] :: below) none).Leads su
    (w.working t d below (some (.value .done))) :=
  hw.leave rfl

/-- What is waited for is shown already. -/
theorem shown {v msg : String} (hw : w.Engaged t) (hf : found[i]? = some h) (hv : d.page.display h = .ok v)
    (hne : v ≠ "none") (htries : su.driver.harness.wait.maxTries ≠ 0) :
    (w.working t d (.steps .hidden found cur (.waitShown (.found i) msg none :: steps) :: below) none).Leads su
      (w.working t (d.write [⟨.pass, msg⟩]) (.steps .hidden found none steps :: below) none) := by
  refine (hw.begins (g := .poll (.shown h) msg su.driver.harness.wait 0) fun stack => ?_).trans
    (.trans ?_ (hw.resumes (s := .waitShown (.found i) msg none) (r := .done)))
  · simp only [World.begin, place, hf, Option.getD_some, Option.getD_none]
  · refine hw.leave ?_
    have hlook : Frame.lookAt (w.working t d (.poll (.shown h) msg su.driver.harness.wait 0 ::
        .steps .hidden found (some (.waitShown (.found i) msg none)) steps :: below) none).scene.page 0 (.shown h) =
        .holds true := by
      show Frame.Look.ofPage _ (d.page.display h) = _
      simp [hv, Frame.Look.ofPage, hne]
    show Frame.runPoll _ _ _ _ _ = _
    have htry : ¬ (WaitOptions.ofDefaults su.driver.harness.wait).maxTries ≤ 0 := by
      show ¬ su.driver.harness.wait.maxTries ≤ 0
      omega
    rw [Frame.runPoll, if_neg htry, hlook]
    rfl

end World.Engaged

end PageTest
