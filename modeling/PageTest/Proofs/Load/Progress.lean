import PageTest.Proofs.Load.Story

/-! How far a load has come, told by its stack and its story, and what one move makes of it. The
load moves on towards one of its ends, with all that it writes in the story. -/

namespace PageTest

namespace Story

/-- The story when the load has just begun in earnest. -/
def begun (p : String) : Story := { blank with opening := [⟨.testStart, p⟩] }

/-- A load whose script was found, up to the end of its run pass. -/
structure Opened (su : Setup) (c : Code) (k : Nat) (p : String) (s : Story) : Prop where
  supported : Frame.startsWith p su.driver.harness.pathStart = true
  found : ∃ sc, su.catalog.script? p = some sc
  opening : s.opening = [⟨.testStart, p⟩]
  registered : ∀ e ∈ s.registered, c.Voices (.within k) e.kind
  said : ∀ r ∈ s.ran, ∀ e ∈ r.said, c.Voices (.within k) e.kind
  verdict : s.verdict = none
  closing : s.closing = []

theorem Opened.begun {su : Setup} {c : Code} {k : Nat} {p : String}
    (hs : Frame.startsWith p su.driver.harness.pathStart = true)
    (hf : ∃ sc, su.catalog.script? p = some sc) : (Story.begun p).Opened su c k p where
  supported := hs
  found := hf
  opening := rfl
  registered := by simp [Story.begun, blank]
  said := by simp [Story.begun, blank]
  verdict := rfl
  closing := rfl

/-- Between two tests of a run pass. -/
structure Passing (s : Story) (queue : List Test) : Prop where
  taken : s.taken = s.ran.reverse.map (·.test) ++ queue
  completed : ∀ r ∈ s.ran, r.completed = true

/-- Within a test of a run pass. -/
structure Testing (s : Story) (t : Test) (queue : List Test) : Prop where
  taken : s.taken = s.ran.reverse.map (·.test) ++ queue
  last : ∃ said before, s.ran = ⟨t, said, none⟩ :: before ∧ ∀ r ∈ before, r.completed = true

/-- After a run pass. Tests that were not started are left out. -/
inductive Concluded (s : Story) : RunState → Prop
  | completed : s.taken = s.ran.reverse.map (·.test) → (∀ r ∈ s.ran, r.completed = true) →
      s.Concluded .completed
  | aborted {r : Ran} {before : List Ran} {queue : List Test} : s.ran = r :: before →
      s.taken = s.ran.reverse.map (·.test) ++ queue → (∀ r ∈ before, r.completed = true) →
      r.raised = true →
      s.Concluded .aborted

end Story

/-- What a loader that takes its time waits in. -/
inductive Delay : List Frame → Option Outcome → Prop
  | sleep (ms : Nat) : Delay [.sleep ms] none
  | pause (due : Nat) : Delay [.pause due] none
  | past : Delay [] (some (.value .done))

inductive Doing (su : Setup) (c : Code) (p : String) : Story → LoadPhase → List Frame →
    Option Outcome → Prop
  | arriving : Doing su c p .blank .arriving [] none
  | queueing (k : Nat) : Doing su c p .blank (.queueing k) [] none
  | entered (k : Nat) : Doing su c p .blank (.entered k) [] none
  | delayed (k : Nat) {inner : List Frame} {ret : Option Outcome} :
      Frame.startsWith p su.driver.harness.pathStart = true → Delay inner ret →
      Doing su c p (.begun p) (.loading k) inner ret
  | loading (k : Nat) : Frame.startsWith p su.driver.harness.pathStart = true →
      Doing su c p (.begun p) (.loading k) [] none
  | registering {s : Story} {k : Nat} {inner : List Frame} {ret : Option Outcome} :
      s.Opened su c k p → s.ran = [] → s.registration = none → Orderly c (.within k) inner ret →
      (inner = [] → ret.isSome) → Doing su c p s (.registering k) inner ret
  | registered {s : Story} {k : Nat} : s.Opened su c k p → s.ran = [] → s.Loaded →
      Doing su c p s (.registering k) [] none
  | passing {s : Story} {k : Nat} {queue : List Test} : s.Opened su c k p → s.Loaded →
      s.Passing queue → (∀ t ∈ queue, t.obeys c = true) →
      Doing su c p s (.running k) [.pass none queue] none
  | testing {s : Story} {k : Nat} {t : Test} {queue : List Test} {inner : List Frame}
      {ret : Option Outcome} : s.Opened su c k p → s.Loaded → s.Testing t queue →
      (∀ t ∈ queue, t.obeys c = true) →
      Orderly c (.within k) inner ret → (inner = [] → ret.isSome) →
      Doing su c p s (.running k) (inner ++ [.pass (some t) queue]) ret
  | passed {s : Story} {k : Nat} {st : RunState} : s.Opened su c k p → s.Loaded → s.Concluded st →
      Doing su c p s (.running k) [] (some (.value (.state st)))
  | closing {s : Story} {k : Nat} {st : RunState} : s.Opened su c k p → s.Loaded → s.Concluded st →
      Doing su c p { s with verdict := some st } (.running k) [] none
  /-- The registry was closed by somebody else. -/
  | refused {s : Story} {k : Nat} : s.Opened su c k p → s.ran = [] → s.Loaded →
      c.body.runs = true →
      Doing su c p { s with closing := [⟨.fail, RegistryError.alreadyRunning.message⟩] } (.running k) [] none

/-- The ends that a load can come to. -/
inductive Over (su : Setup) (c : Code) (p : String) : Story → Outcome → Prop
  | rejected : Frame.startsWith p su.driver.harness.pathStart = false →
      Over su c p { Story.blank with opening := [⟨.fail, Frame.unsupportedPath p⟩] } (.value .done)
  | unknown : Frame.startsWith p su.driver.harness.pathStart = true → su.catalog.script? p = none →
      Over su c p { Story.begun p with closing := [⟨.fail, Frame.noSuchScript p⟩] } (.value .done)
  | unregistered {s : Story} {k : Nat} {o : Outcome} {reason : String} : s.Opened su c k p →
      s.ran = [] → s.registration = some o → Story.loadError p o = some reason →
      Over su c p { s with closing := [⟨.fail, reason⟩] } (.value .done)
  | died : su.loader.panicOn = some p → Over su c p (.begun p) (.panic (.said "loader panicked"))
  | ended {s : Story} {k : Nat} {st : RunState} : s.Opened su c k p → s.Loaded → s.Concluded st →
      Over su c p { s with verdict := some st, closing := [⟨.testEnd, p⟩] } (.value .done)
  | refused {s : Story} {k : Nat} : s.Opened su c k p → s.ran = [] → s.Loaded →
      c.body.runs = true →
      Over su c p { s with closing := [⟨.fail, RegistryError.alreadyRunning.message⟩, ⟨.testEnd, p⟩] } (.value .done)

/-- What the rest of the world owes to a load on its way. -/
def Grounded (c : Code) (k : Core) : LoadPhase → Prop
  | .arriving => True
  | .queueing t => t < k.lock.tickets
  | .entered t => k.lock.holder = some t ∧ t < k.lock.tickets
  | .loading t | .registering t =>
    (k.lock.holder = some t ∧ t < k.lock.tickets) ∧ (∀ u ∈ k.registry.tests, u.obeys c = true) ∧
      (c.body.runs = false → k.registry.state ≠ .running)
  | .running t => (k.lock.holder = some t ∧ t < k.lock.tickets) ∧
      ∀ u ∈ k.registry.tests, u.obeys c = true

/-- What a move of a load is to everybody else. -/
structure Advance (c : Code) (w v : World) (es : List LogEntry) : Prop where
  reach : Reach c false w.core v.core
  history : v.log.history = w.log.history ++ es
  log : c.body.drains = false → v.log = w.log.appendAll es

/-- The lock after a move of a load that is not its last one. -/
inductive Keeps (c : Code) (self : Nat) (l l' : Lock) : LoadPhase → LoadPhase → Prop
  | arrive : l' = (l.arrive self).2 → Keeps c self l l' .arriving (.queueing l.tickets)
  | keep {phase phase' : LoadPhase} : World.ticketOf phase' = World.ticketOf phase →
      l'.holder = l.holder → l.tickets ≤ l'.tickets → (c.body.loads = false → l' = l) →
      Keeps c self l l' phase phase'

/-- A story goes on: all that was written is told. -/
structure Tells (s : Story) (phase : LoadPhase) (inner : List Frame)
    (ret : Option Outcome) (w : World) (es : List LogEntry) (s' : Story) : Prop where
  story : s.observe phase inner ret w.registry.tests es = s'
  log : s'.log = s.log ++ es

/-- One move of a load: it goes on, or it is over. -/
inductive Progress (su : Setup) (c : Code) (p : String) (self : Nat) (s : Story) (phase : LoadPhase)
    (inner : List Frame) (ret : Option Outcome) (below rest : List Frame) (w : World) :
    World × Move → Prop
  | on {v : World} {m : Move} (es : List LogEntry) (s' : Story) (phase' : LoadPhase)
      (inner' : List Frame) (ret' : Option Outcome) : Advance c w v es →
      Tells s phase inner ret w es s' →
      m.onto rest = (inner' ++ .load p phase' :: below, ret') → Doing su c p s' phase' inner' ret' →
      Grounded c v.core phase' → Keeps c self w.lock v.lock phase phase' →
      Progress su c p self s phase inner ret below rest w (v, m)
  | off {v : World} {k : Nat} {o : Outcome} (es : List LogEntry) (s' : Story) : Advance c w v es →
      Tells s phase inner ret w es s' → rest = below → World.ticketOf phase = some k →
      v.lock = (w.lock.leave k).2 → Over su c p s' o →
      Progress su c p self s phase inner ret below rest w (v, .leave o)

/-! The load's own moves -/

namespace Advance

variable {c : Code} {w v : World} {es : List LogEntry}

/-- A move that writes to the log, the registry and the lock at most. -/
theorem own {g : Registry Test} {l : Lock}
    (h : v.core = { w.core with log := w.log.appendAll es, registry := g, lock := l }) :
    Advance c w v es where
  reach := by rw [h]; exact { (Reach.refl w.core : Reach c false w.core w.core) with }
  history := by rw [show v.log = w.log.appendAll es from congrArg Core.log h, Log.history_appendAll]
  log _ := congrArg Core.log h

theorem still (h : v.core = w.core) : Advance c w v [] :=
  own (g := w.registry) (l := w.lock) (by rw [h]; simp [Log.appendAll, World.core])

end Advance

theorem Keeps.still {c : Code} {self : Nat} {l l' : Lock} {phase phase' : LoadPhase}
    (ht : World.ticketOf phase' = World.ticketOf phase) (h : l' = l) :
    Keeps c self l l' phase phase' :=
  .keep ht (by rw [h]) (by rw [h]) fun _ => h

namespace Doing

variable {su : Setup} {c : Code} {p : String} {self k : Nat} {s : Story}
variable {below : List Frame} {w : World}

theorem act_arriving : Progress su c p self .blank .arriving [] none below below w
    (Frame.runLoad su w self p .arriving) := by
  unfold Frame.runLoad
  dsimp only
  split_ifs with ha
  · exact .on [] .blank .arriving [] none (.still rfl) ⟨rfl,
      rfl⟩ rfl .arriving trivial (.still rfl rfl)
  · have ht : (w.lock.arrive self).1 = w.lock.tickets ∧
      (w.lock.arrive self).2.tickets = w.lock.tickets + 1 := by
      unfold Lock.arrive; split <;> exact ⟨rfl, rfl⟩
    rcases hl : w.lock.arrive self with ⟨ticket, lock⟩
    rw [hl] at ht
    obtain ⟨rfl, ht⟩ := ht
    change lock.tickets = w.lock.tickets + 1 at ht
    refine .on [] .blank (.queueing w.lock.tickets) [] none (.own (g := w.registry) (l := lock) ?_) ⟨rfl, rfl⟩ rfl
      (.queueing _) ?_ (.arrive ?_)
    · simp [World.core, Log.appendAll]
    · show w.lock.tickets < lock.tickets
      omega
    · rw [hl]

theorem act_queueing (hg : Grounded c w.core (.queueing k)) :
    Progress su c p self .blank (.queueing k) [] none below below w (Frame.runLoad su w self p (.queueing k)) := by
  unfold Frame.runLoad
  dsimp only
  split_ifs with hh
  · exact .on [] .blank (.entered k) [] none (.still rfl) ⟨rfl, rfl⟩ rfl (.entered k) ⟨hh,
      hg⟩ (.still rfl rfl)
  · exact .on [] .blank (.queueing k) [] none (.still rfl) ⟨rfl,
      rfl⟩ rfl (.queueing k) hg (.still rfl rfl)

theorem act_entered (hg : Grounded c w.core (.entered k)) :
    Progress su c p self .blank (.entered k) [] none below below w (Frame.runLoad su w self p (.entered k)) := by
  have hempty : Grounded c { w.core with log := w.log.append ⟨.testStart, p⟩, registry := .empty } (.loading k) :=
    ⟨hg, by simp [Registry.empty], fun _ => by simp [Registry.empty]⟩
  unfold Frame.runLoad
  dsimp only
  split_ifs with hs hd
  · exact .on [⟨.testStart, p⟩] (.begun p) (.loading k) [] none (.own (g := .empty) (l := w.lock) rfl) ⟨rfl, rfl⟩ rfl
      (.loading k hs) hempty (.still rfl rfl)
  · exact .on [⟨.testStart, p⟩] (.begun p) (.loading k) [.sleep su.loader.delayMs] none
      (.own (g := .empty) (l := w.lock) rfl) ⟨rfl,
      rfl⟩ rfl (.delayed k hs (.sleep _)) hempty (.still rfl rfl)
  · refine .off [⟨.fail, Frame.unsupportedPath p⟩] _ (.own (g := w.registry) (l := (w.lock.leave k).2) ?_)
      ⟨rfl, rfl⟩ rfl rfl ?_ (.rejected (by simpa using hs))
    · rw [World.core_leaveLock]; rfl
    · exact congrArg Core.lock (World.core_leaveLock _ k)

theorem act_delayed {inner : List Frame} {ret : Option Outcome} {f : Frame} {rest : List Frame}
    (hs : Frame.startsWith p su.driver.harness.pathStart = true) (hd : Delay inner ret)
    (hg : Grounded c w.core (.loading k)) (hf : inner ++ .load p (.loading k) :: below = f :: rest) :
    Progress su c p self (.begun p) (.loading k) inner ret below rest w (f.act su w self ret) := by
  have still {inner' : List Frame} {ret' : Option Outcome} {v : World} {m : Move} (hd' : Delay inner' ret')
      (hv : v.core = w.core) (hl : v.lock = w.lock) (hm : m.onto rest = (inner' ++ .load p (.loading k) :: below, ret')) :
      Progress su c p self (.begun p) (.loading k) inner ret below rest w (v, m) :=
    .on [] (.begun p) (.loading k) inner' ret' (.still hv) ⟨rfl,
      rfl⟩ hm (.delayed k hs hd') (by rw [hv]; exact hg)
      (.still rfl hl)
  cases hd with
  | sleep ms =>
    obtain ⟨rfl, rfl⟩ := List.cons.inj hf
    simp only [Frame.act, Frame.run, Frame.runSleep]
    split_ifs
    · exact still (.sleep ms) rfl rfl rfl
    · exact still .past rfl rfl rfl
    · exact still (.pause _) rfl rfl rfl
  | pause due =>
    obtain ⟨rfl, rfl⟩ := List.cons.inj hf
    simp only [Frame.act, Frame.run, Frame.runPause]
    split_ifs
    · exact still .past rfl rfl rfl
    · exact still (.pause due) rfl rfl rfl
  | past =>
    obtain ⟨rfl, rfl⟩ := List.cons.inj hf
    exact .on [] (.begun p) (.loading k) [] none (.still rfl) ⟨rfl,
      rfl⟩ rfl (.loading k hs) hg (.still rfl rfl)

/-- A load that failed. -/
theorem off_failLoad {phase : LoadPhase} {inner : List Frame} {ret : Option Outcome} {s' : Story}
    (reason : String) (ht : Tells s phase inner ret w [⟨.fail, reason⟩] s')
    (hk : World.ticketOf phase = some k) (ho : Over su c p s' (.value .done)) :
    Progress su c p self s phase inner ret below below w (Frame.failLoad w k reason) := by
  refine .off [⟨.fail, reason⟩] s' (.own (g := w.registry) (l := (w.lock.leave k).2) ?_) ht rfl hk ?_ ho
  · rw [World.core_leaveLock]; rfl
  · exact congrArg Core.lock (World.core_leaveLock _ k)

theorem act_loading (hs : Frame.startsWith p su.driver.harness.pathStart = true)
    (hc : ∀ sc ∈ su.catalog, sc.obeys c = true) (hg : Grounded c w.core (.loading k)) :
    Progress su c p self (.begun p) (.loading k) [] none below below w (Frame.runLoad su w self p (.loading k)) := by
  unfold Frame.runLoad
  dsimp only
  split_ifs with hp
  · refine .off [] _ (.own (g := w.registry) (l := (w.lock.leave k).2) ?_) ⟨rfl,
      rfl⟩ rfl rfl ?_ (.died hp)
    · rw [World.core_leaveLock]; simp [World.core, Log.appendAll]
    · exact congrArg Core.lock (World.core_leaveLock _ k)
  · cases hf : su.catalog.script? p with
    | none => exact off_failLoad _ ⟨rfl, rfl⟩ rfl (.unknown hs hf)
    | some sc =>
      have ho : (Story.begun p).Opened su c k p := .begun hs ⟨sc, hf⟩
      have hb : ∀ st ∈ sc.body, st.obeys c c.body = true :=
        Step.allObey_iff.1 (hc sc (List.mem_of_find?_eq_some hf))
      exact .on [] _ (.registering k) [.steps _ [] none sc.body] none (.still rfl) ⟨rfl, rfl⟩ rfl
        (.registering ho rfl rfl ⟨hb, by simp, by simp⟩ (by simp)) hg (.still rfl rfl)

end Doing

end PageTest
