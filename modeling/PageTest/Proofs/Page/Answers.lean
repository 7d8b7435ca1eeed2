import PageTest.Proofs.Page.Due
import PageTest.Proofs.Page.Changes

/-! What answers an event. Handlers may dispatch events themselves while they are called, so that what goes on in a
step is a tree of dispatches and calls: its account. The page's record and the trace of calls grow by what is in
the account and in the order in which it is there. -/

namespace PageTest

/-- What goes on, one thing after another. -/
inductive Account where
  | done
  /-- An event is recorded and answered. -/
  | event (d : Dispatch) (answer next : Account)
  /-- A handler is called with an event, and something goes on meanwhile. -/
  | call (a : Action) (d : Dispatch) (meanwhile next : Account)

namespace Account

def andThen : Account → Account → Account
  | done, b => b
  | event d answer next, b => event d answer (next.andThen b)
  | call a d meanwhile next, b => call a d meanwhile (next.andThen b)

/-- The events, each in front of those that its handlers dispatch. -/
def records : Account → List Dispatch
  | done => []
  | event d answer next => d :: (answer.records ++ next.records)
  | call _ _ meanwhile next => meanwhile.records ++ next.records

/-- Calls one after another, each with what goes on meanwhile. -/
def answering (d : Dispatch) : List (Action × Account) → Account
  | [] => done
  | (a, meanwhile) :: rest => call a d meanwhile (answering d rest)

/-- All calls of the handlers that have a number. -/
def numbered : Account → List (Nat × Dispatch)
  | done => []
  | event _ answer next => answer.numbered ++ next.numbered
  | call (.steps i _) d meanwhile next => (i, d) :: (meanwhile.numbered ++ next.numbered)
  | call _ _ meanwhile next => meanwhile.numbered ++ next.numbered

variable (a b : Account)

theorem records_andThen : (a.andThen b).records = a.records ++ b.records := by
  induction a with
  | done => rfl
  | event d answer next _ ih => simp [andThen, records, ih]
  | call a d meanwhile next _ ih => simp [andThen, records, ih]

theorem numbered_andThen : (a.andThen b).numbered = a.numbered ++ b.numbered := by
  induction a with
  | done => rfl
  | event d answer next _ ih => simp [andThen, numbered, ih]
  | call a d meanwhile next _ ih => cases a <;> simp [andThen, numbered, ih]

theorem records_answering (d : Dispatch) (cs : List (Action × Account)) :
    (answering d cs).records = cs.flatMap (·.2.records) := by
  induction cs with
  | nil => rfl
  | cons c rest ih => simp [answering, records, ih]

end Account

namespace Scene

/-! The account of a step -/

section

variable (now : Nat) (exec : Scene → PageStep → Scene × Outcome) (account : Scene → PageStep → Account)

def stepsAccount (who : Origin) : List PageStep → Scene → Account
  | [], _ => .done
  | step :: rest, s =>
    (account s step).andThen <| match exec s step with
      | (s, .value r) => stepsAccount who rest (s.note now who (.returned step.name r))
      | (s, .fault f) => stepsAccount who rest (s.note now who (.failed step.name f))
      | (_, .panic _) => .done

/-- What goes on while a handler is called. -/
def callAccount (d : Dispatch) (s : Scene) : Action → Account
  | .steps i body => stepsAccount now exec account (.handler i) body (s.note now (.handler i) (.event d))
  | _ => .done

/-- Handlers are called one after another, until there are none left or one of them panics. -/
def callsAccount (d : Dispatch) : List Action → Scene → Account
  | [], _ => .done
  | a :: rest, s =>
    .call a d (callAccount now exec account d s a) <| match runAction now exec d s a with
      | (s, none) => callsAccount d rest s
      | (_, some _) => .done

def dispatchAccount (s : Scene) (d : Dispatch) : Account :=
  match s.page.dispatch d with
  | .error _ => .done
  | .ok (page, actions) => .event d (callsAccount now exec account d actions { s with page }) .done

end

/-- The account of a step on the page. -/
def accountOf (now : Nat) : Nat → Option Nat → Scene → PageStep → Account
  | depth, target, s, step =>
    match step with
    | .dispatch e kind bubbles =>
      match s.place target e with
      | .error _ => .done
      | .ok h =>
        match depth with
        | 0 => .done
        | depth + 1 =>
          dispatchAccount now (perform now depth (some h)) (accountOf now depth (some h)) s ⟨h, kind, bubbles⟩
    | _ => .done

/-- The calls of numbered handlers that have been traced. -/
def numberedCalls (s : Scene) : List (Nat × Dispatch) :=
  s.trace.filterMap fun t =>
    match t.who, t.what with
    | .handler i, .event d => some (i, d)
    | _, _ => none

/-- The second scene comes after the first by what is accounted for. -/
structure Accounts (a : Account) (s s' : Scene) : Prop where
  records : s'.page.dispatched = s.page.dispatched ++ a.records
  numbered : s'.numberedCalls = s.numberedCalls ++ a.numbered

variable {a b : Account} {s s' s'' : Scene}

namespace Accounts

theorem same (hp : s'.page.dispatched = s.page.dispatched) (ht : s'.trace = s.trace) : Accounts .done s s' where
  records := by simp [hp, Account.records]
  numbered := by simp [numberedCalls, ht, Account.numbered]

theorem trans (h : Accounts a s s') (h' : Accounts b s' s'') : Accounts (a.andThen b) s s'' where
  records := by rw [h'.records, h.records, Account.records_andThen, List.append_assoc]
  numbered := by rw [h'.numbered, h.numbered, Account.numbered_andThen, List.append_assoc]

/-- A remark of another kind than that a handler is called. -/
theorem remark {now : Nat} {who : Origin} {what : Remark} (hw : ∀ d, what ≠ .event d)
    (h : Accounts a (s.note now who what) s') : Accounts a s s' := by
  have hcalls : (s.note now who what).numberedCalls = s.numberedCalls := by
    unfold note numberedCalls
    split_ifs with hid
    · rfl
    · cases what with
      | event d => exact absurd rfl (hw d)
      | _ => simp
  exact ⟨by rw [h.records, page_note], by rw [h.numbered, hcalls]⟩

theorem plain (h : Plain s s') : Accounts .done s s' := by
  refine .same ?_ h.trace
  rcases h.page with hp | ⟨e, hn, he⟩
  · rw [hp]
  · exact Page.dispatched_of_edit hn he

/-- That a numbered handler is called is traced. -/
theorem entered {now i : Nat} {d : Dispatch} (h : Accounts a (s.note now (.handler i) (.event d)) s') :
    s'.page.dispatched = s.page.dispatched ++ a.records ∧
      s'.numberedCalls = s.numberedCalls ++ (i, d) :: a.numbered := by
  have hcalls : (s.note now (.handler i) (.event d)).numberedCalls = s.numberedCalls ++ [(i, d)] := by
    simp [note, numberedCalls]
  exact ⟨by rw [h.records, page_note], by rw [h.numbered, hcalls, List.append_assoc, List.singleton_append]⟩

end Accounts

/-! Handlers -/

section Handlers

variable {exec : Scene → PageStep → Scene × Outcome} {account : Scene → PageStep → Account}
  (h : ∀ (s : Scene) (step : PageStep), Accounts (account s step) s (exec s step).1)

include h

theorem accounts_runSteps (now : Nat) (who : Origin) (steps : List PageStep) (s : Scene) :
    Accounts (stepsAccount now exec account who steps s) s (runSteps now who exec steps s).1 := by
  induction steps generalizing s with
  | nil => exact .same rfl rfl
  | cons step rest ih =>
    have hstep := h s step
    rcases he : exec s step with ⟨v, o⟩
    rw [he] at hstep
    simp only [stepsAccount, runSteps, he]
    cases o with
    | value r => exact hstep.trans ((ih _).remark (by simp))
    | fault f => exact hstep.trans ((ih _).remark (by simp))
    | panic p => exact hstep.trans (.same rfl rfl)

/-- A call with what goes on meanwhile. -/
theorem accounts_runAction (now : Nat) (d : Dispatch) (s : Scene) (a : Action) :
    Accounts (.call a d (callAccount now exec account d s a) .done) s (runAction now exec d s a).1 := by
  cases a with
  | steps i body =>
    -- the trace has the call first, and then what its steps lead to
    obtain ⟨hrecords, hnumbered⟩ :=
      (accounts_runSteps h now (.handler i) body (s.note now (.handler i) (.event d))).entered
    refine ⟨?_, ?_⟩
    · simpa only [Account.records, List.append_nil, runAction, callAccount] using hrecords
    · simpa only [Account.numbered, List.append_nil, runAction, callAccount] using hnumbered
  | reveal field panel =>
    have hquiet : Accounts .done s (runAction now exec d s (.reveal field panel)).1 := by
      unfold runAction
      dsimp only
      split
      next page hq => exact .same (Page.dispatched_of_edit (e := .display panel _) rfl hq) rfl
      next => exact .same rfl rfl
    exact ⟨hquiet.records, hquiet.numbered⟩
  | navigate => exact ⟨(Accounts.same rfl rfl).records, (Accounts.same rfl rfl).numbered⟩

theorem accounts_runActions (now : Nat) (d : Dispatch) (actions : List Action) (s : Scene) :
    Accounts (callsAccount now exec account d actions s) s (runActions now exec d actions s).1 := by
  induction actions generalizing s with
  | nil => exact .same rfl rfl
  | cons a rest ih =>
    have ha := accounts_runAction h now d s a
    rcases he : runAction now exec d s a with ⟨v, o⟩
    rw [he] at ha
    simp only [callsAccount, runActions, he]
    cases o with
    | none => exact ha.trans (ih v)
    | some p => exact ha

theorem accounts_dispatchWith (now : Nat) (s : Scene) (d : Dispatch) :
    Accounts (dispatchAccount now exec account s d) s (dispatchWith now exec s d).1 := by
  unfold dispatchAccount dispatchWith
  cases hd : s.page.dispatch d with
  | error e => exact .same rfl rfl
  | ok r =>
    obtain ⟨page, actions⟩ := r
    obtain rfl := Page.dispatch_eq_ok hd
    have hcalls := accounts_runActions h now d actions
      { s with page := { s.page with dispatched := s.page.dispatched ++ [d] } }
    refine ⟨?_, ?_⟩
    · rw [hcalls.records]
      simp [Account.records]
    · rw [hcalls.numbered]
      simp [numberedCalls, Account.numbered]

end Handlers

/-- A step with all that handlers do about it, however deep events are nested. -/
theorem accounts_perform (now depth : Nat) (target : Option Nat) (s : Scene) (step : PageStep) :
    Accounts (accountOf now depth target s step) s (s.perform now depth target step).1 := by
  induction depth generalizing target s step with
  | zero =>
    cases step with
    | dispatch e kind bubbles =>
      unfold perform accountOf
      dsimp only
      unfold placed
      cases s.place target e <;> exact .same rfl rfl
    | _ => exact .plain (plain_perform now 0 target rfl)
  | succ depth ih =>
    cases step with
    | dispatch e kind bubbles =>
      unfold perform accountOf
      dsimp only
      unfold placed
      cases s.place target e with
      | error e => exact .same rfl rfl
      | ok h => exact accounts_dispatchWith (fun s step => ih (some h) s step) now s _
    | _ => exact .plain (plain_perform now (depth + 1) target rfl)

/-- Each call is made where the calls before it leave off. -/
def Successive (now : Nat) (exec : Scene → PageStep → Scene × Outcome) (account : Scene → PageStep → Account)
    (d : Dispatch) (s : Scene) (cs : List (Action × Account)) : Prop :=
  ∀ before c after, cs = before ++ c :: after → ∃ u,
    runActions now exec d (before.map (·.1)) s = (u, .value .done) ∧ c.2 = callAccount now exec account d u c.1

section Sequence

variable {now : Nat} {exec : Scene → PageStep → Scene × Outcome} {account : Scene → PageStep → Account} {d : Dispatch}

theorem Successive.single (s : Scene) (a : Action) :
    Successive now exec account d s [(a, callAccount now exec account d s a)] := by
  intro before c after hsplit
  cases before with
  | nil =>
    obtain ⟨rfl, -⟩ := List.cons.inj hsplit
    exact ⟨s, rfl, rfl⟩
  | cons b before => simp at hsplit

theorem Successive.cons {s v : Scene} {a : Action} {cs : List (Action × Account)}
    (h : Successive now exec account d v cs) (ha : runAction now exec d s a = (v, none)) :
    Successive now exec account d s ((a, callAccount now exec account d s a) :: cs) := by
  intro before c after hsplit
  cases before with
  | nil =>
    obtain ⟨rfl, -⟩ := List.cons.inj hsplit
    exact ⟨s, rfl, rfl⟩
  | cons b before =>
    obtain ⟨rfl, hrest⟩ := List.cons.inj hsplit
    obtain ⟨u, hu, hc⟩ := h before c after hrest
    exact ⟨u, by simpa [runActions, ha] using hu, hc⟩

variable (now exec account d)

/-- Handlers are called one after another: all of them, or those up to one that panics. -/
theorem exists_callsAccount (actions : List Action) (s : Scene) :
    ∃ cs, callsAccount now exec account d actions s = .answering d cs ∧ Successive now exec account d s cs ∧
      (cs.map (·.1) = actions ∧ (runActions now exec d actions s).2 = .value .done ∨
        ∃ called c rest u p, cs = called ++ [c] ∧ actions = cs.map (·.1) ++ rest ∧
          runActions now exec d (called.map (·.1)) s = (u, .value .done) ∧
          runAction now exec d u c.1 = ((runActions now exec d actions s).1, some p) ∧
          (runActions now exec d actions s).2 = .panic p) := by
  induction actions generalizing s with
  | nil => exact ⟨[], rfl, by simp [Successive], .inl ⟨rfl, rfl⟩⟩
  | cons a rest ih =>
    rcases ha : runAction now exec d s a with ⟨v, o⟩
    simp only [callsAccount, runActions, ha]
    cases o with
    | some p => exact ⟨[_], rfl, .single s a, .inr ⟨[], _, rest, s, p, rfl, rfl, rfl, ha, rfl⟩⟩
    | none =>
      obtain ⟨cs, hcs, hsucc, hend⟩ := ih v
      refine ⟨_ :: cs, congrArg (Account.call a d _) hcs, hsucc.cons ha, ?_⟩
      rcases hend with ⟨hall, hdone⟩ | ⟨called, c, rest', u, p, rfl, hrest, hcalled, hc, hp⟩
      · exact .inl ⟨by simp [hall], hdone⟩
      · refine .inr ⟨_ :: called, c, rest', u, p, rfl, by simp [hrest], ?_, hc, hp⟩
        simp [runActions, ha, hcalled]

end Sequence

end Scene

open Scene

/-- An event on an attached element is recorded once and then answered: of the handlers that are there beforehand those
that it is due to are called with it, in the one order in which it is due to them. One that panics is the last to be
called. What is dispatched in the course of the calls is recorded call by call. -/
theorem handlers_called {s : Scene} {d : Dispatch} (hp : Page.empty.Changes s.page) (hd : s.page.Attached d.target)
    (now depth : Nat) :
    let exec := perform now depth (some d.target)
    let account := accountOf now depth (some d.target)
    let recorded := { s with page := { s.page with dispatched := s.page.dispatched ++ [d] } }
    let run := dispatchWith now exec s d
    ∃ regs cs, (∀ regs', s.page.Due d regs' ↔ regs' = regs) ∧
      run = runActions now exec d (s.page.actionsAt regs) recorded ∧ Successive now exec account d recorded cs ∧
      (cs.map (·.1) = s.page.actionsAt regs ∧ run.2 = .value .done ∨
        ∃ called c rest u p, cs = called ++ [c] ∧ s.page.actionsAt regs = cs.map (·.1) ++ rest ∧
          runActions now exec d (called.map (·.1)) recorded = (u, .value .done) ∧
          runAction now exec d u c.1 = (run.1, some p) ∧ run.2 = .panic p) ∧
      run.1.page.dispatched = s.page.dispatched ++ d :: cs.flatMap (·.2.records) ∧
      run.1.numberedCalls = s.numberedCalls ++ (Account.answering d cs).numbered ∧
      ∀ target e, s.place target e = .ok d.target →
        s.perform now (depth + 1) target (.dispatch e d.kind d.bubbles) = run := by
  intro exec account recorded run
  have hs : s.page.Sound := hp.sound Page.sound_empty
  have hrecorded : s.page.dispatch d = .ok (recorded.page, s.page.actionsAt (s.page.regsOf d)) := by
    obtain ⟨e, he⟩ := hd.get
    simp only [Page.dispatch, he, Page.actionsAt_regsOf]
    rfl
  have hrun : run = runActions now exec d (s.page.actionsAt (s.page.regsOf d)) recorded := by
    simp only [run, dispatchWith, hrecorded]
    rfl
  obtain ⟨cs, hcs, hsucc, hend⟩ :=
    exists_callsAccount now exec account d (s.page.actionsAt (s.page.regsOf d)) recorded
  have haccount : dispatchAccount now exec account s d = .event d (.answering d cs) .done := by
    simp only [dispatchAccount, hrecorded, ← hcs]
    rfl
  have hkept : Accounts (dispatchAccount now exec account s d) s run.1 :=
    accounts_dispatchWith (accounts_perform now depth (some d.target)) now s d
  rw [haccount] at hkept
  rw [← hrun] at hend
  refine ⟨s.page.regsOf d, cs, fun regs' => hs.due_iff, hrun, hsucc, hend, ?_, ?_, ?_⟩
  · simpa [Account.records, Account.records_answering] using hkept.records
  · simpa [Account.numbered] using hkept.numbered
  · intro target e hplace
    simp only [perform, placed, hplace]
    rfl

/-- A field in a form. The first handler removes both and sends another event to the form, and the one of the form
registers a further one. -/
def Demo.bustling : Scene := .ofPage
  { elements := [⟨"form", none, "block", none, none, true⟩, ⟨"input", some 0, "inline", some "", none, true⟩]
    ids := []
    handlers := [⟨0, "input", .steps 0 [.on .target "input" [], .dispatch (.handle 1) "input" true]⟩,
      ⟨1, "input", .steps 1 [.dispatch (.handle 0) "change" true, .remove (.handle 0)]⟩, ⟨0, "change", .steps 2 []⟩,
      ⟨1, "input", .steps 3 []⟩]
    listeners := []
    dispatched := [] }

/-- None of it keeps the event from those that it is due to. -/
theorem handlers_called_bustling :
    let d : Dispatch := ⟨1, "input", true⟩
    let run := dispatchWith 0 (perform 0 1 (some 1)) Demo.bustling d
    (∀ regs, Demo.bustling.page.Due d regs ↔ regs = [1, 3, 0]) ∧ run.2 = .value .done ∧
      run.1.page.dispatched = [d, ⟨0, "change", true⟩] ∧
      run.1.numberedCalls = [(1, d), (2, ⟨0, "change", true⟩), (3, d), (0, d)] ∧
      ∃ cs : List (Action × Account), cs.map (·.1) = Demo.bustling.page.actionsAt [1, 3, 0] ∧
        cs.flatMap (·.2.records) = [⟨0, "change", true⟩] := by
  intro d run
  have hedits : Page.empty.Edited [.create none "form" "" false, .create (some 0) "input" "" false,
      .handler 0 "input" (.steps 0 [.on .target "input" [], .dispatch (.handle 1) "input" true]),
      .handler 1 "input" (.steps 1 [.dispatch (.handle 0) "change" true, .remove (.handle 0)]),
      .handler 0 "change" (.steps 2 []), .handler 1 "input" (.steps 3 [])]
      Demo.bustling.page := Page.edited_of_foldlM rfl
  have hfield : Demo.bustling.page.Attached d.target := ⟨_, rfl, rfl⟩
  have hrecords : run.1.page.dispatched = [d, ⟨0, "change", true⟩] := by decide +kernel
  have hdone : run.2 = .value .done := rfl
  obtain ⟨regs, cs, hdue, -, -, hcalls, hdispatched, -⟩ := handlers_called hedits.changes hfield 0 1
  obtain rfl : [1, 3, 0] = regs := (hdue _).1 (hedits.sound.due_iff.2 (by decide +kernel))
  refine ⟨hdue, hdone, hrecords, by decide +kernel, cs, ?_, ?_⟩
  · rcases hcalls with ⟨hall, -⟩ | ⟨called, c, rest, u, p, -, -, -, -, hp⟩
    · exact hall
    · cases hdone.symm.trans hp
  · simpa [Demo.bustling, ofPage] using (hdispatched.symm.trans hrecords)

/-- A button with two handlers, the first of which panics. -/
def Demo.faltering : Scene := .ofPage
  { elements := [⟨"button", none, "inline", none, none, true⟩]
    ids := []
    handlers := [⟨0, "click", .steps 0 [.panic (.said "stop")]⟩, ⟨0, "click", .steps 1 []⟩]
    listeners := []
    dispatched := [] }

/-- The event is due to both handlers, and the second is not called. -/
theorem handlers_called_not_all :
    let d : Dispatch := ⟨0, "click", false⟩
    let run := dispatchWith 0 (perform 0 1 (some 0)) Demo.faltering d
    Page.empty.Changes Demo.faltering.page ∧ Demo.faltering.page.Attached 0 ∧ Demo.faltering.page.Due d [0, 1] ∧
      run.2 = .panic (.said "stop") ∧ run.1.numberedCalls = [(0, d)] := by
  intro d run
  have hedits : Page.empty.Edited [.create none "button" "" false,
      .handler 0 "click" (.steps 0 [.panic (.said "stop")]), .handler 0 "click" (.steps 1 [])]
      Demo.faltering.page := Page.edited_of_foldlM rfl
  have hdue : Demo.faltering.page.Due d [0, 1] := hedits.sound.due_iff.2 (by decide +kernel)
  exact ⟨hedits.changes, ⟨_, rfl, rfl⟩, hdue, rfl, by decide +kernel⟩

end PageTest
