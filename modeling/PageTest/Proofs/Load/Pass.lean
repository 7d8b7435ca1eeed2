import PageTest.Proofs.Load.Progress

/-! The middle of a load: its script registers tests, and a run pass takes them one by one. Every
move of a load leads to the next place on its way or to one of its ends. -/

namespace PageTest

theorem Move.onto_append (m : Move) (deep below : List Frame) :
    m.onto (deep ++ below) = ((m.onto deep).1 ++ below, (m.onto deep).2) := by
  cases m <;> rfl

/-- Only a frame that is left leaves nothing, and then its outcome is there. -/
theorem Move.onto_left (m : Move) (deep : List Frame) : (m.onto deep).1 = [] → (m.onto deep).2.isSome := by
  cases m <;> simp [Move.onto]

namespace Story

variable {su : Setup} {c : Code} {p : String} {k : Nat} {s : Story}

/-- More was written while tests were registered. -/
theorem Opened.register {es : List LogEntry} (h : s.Opened su c k p)
    (he : ∀ e ∈ es, c.Voices (.within k) e.kind) :
    { s with registered := s.registered ++ es }.Opened su c k p :=
  { h with
    registered := fun e hm => by
      rcases List.mem_append.1 hm with h1 | h1
      · exact h.registered e h1
      · exact he e h1 }

theorem Opened.ran {ran : List Ran} (h : s.Opened su c k p)
    (hr : ∀ r ∈ ran, ∀ e ∈ r.said, c.Voices (.within k) e.kind) : { s with ran }.Opened su c k p :=
  { h with said := hr }

/-- Nothing was written at the end so far. -/
theorem Opened.closing_append (h : s.Opened su c k p) (es : List LogEntry) :
    { s with closing := s.closing ++ es } = { s with closing := es } := by
  rw [h.closing, List.nil_append]

theorem closing_nil (s : Story) : { s with closing := s.closing ++ [] } = s := by simp

theorem log_cons {r : Ran} {before : List Ran} (hr : s.ran = r :: before) (hc : s.closing = []) :
    s.log = { s with ran := before }.log ++ r.log := by
  simp [log, hr, hc]

section TestOver

variable {t : Test} {said : List LogEntry} {before : List Ran} {queue : List Test}

theorem Opened.conclude (h : s.Opened su c k p) (hr : s.ran = ⟨t, said, none⟩ :: before) (o : Outcome) :
    (s.conclude o).Opened su c k p := by
  rw [conclude_cons hr]
  refine h.ran fun r hm e he => ?_
  rcases List.mem_cons.1 hm with rfl | hm
  · exact h.said ⟨t, said, none⟩ (by simp [hr]) e he
  · exact h.said r (by simp [hr, hm]) e he

/-- All that the end of a test adds is what is written about that end. -/
theorem log_conclude (hr : s.ran = ⟨t, said, none⟩ :: before) (hc : s.closing = []) (o : Outcome) :
    (s.conclude o).log = s.log ++ (Ran.mk t said (some o)).closing := by
  rw [conclude_cons hr]
  simp [log, hr, hc, Ran.log, Ran.closing]

theorem Testing.taken_conclude (h : s.Testing t queue) (o : Outcome) :
    (s.conclude o).taken = (s.conclude o).ran.reverse.map (·.test) ++ queue := by
  obtain ⟨said, before, hr, -⟩ := h.last
  rw [conclude_cons hr, h.taken, hr]
  simp

/-- A test that returns leaves the pass between two tests. -/
theorem Testing.passing (h : s.Testing t queue) (v : Reply) : (s.conclude (.value v)).Passing queue := by
  refine ⟨h.taken_conclude _, ?_⟩
  obtain ⟨said, before, hr, hbefore⟩ := h.last
  rw [conclude_cons hr]
  intro r hm
  rcases List.mem_cons.1 hm with rfl | hm
  · rfl
  · exact hbefore r hm

/-- A test that raises ends its pass. -/
theorem Testing.aborted {o : Outcome} (h : s.Testing t queue) (ho : ∀ v, o ≠ .value v) :
    (s.conclude o).Concluded .aborted := by
  have ht := h.taken_conclude o
  obtain ⟨said, before, hr, hbefore⟩ := h.last
  refine .aborted (by rw [conclude_cons hr]) ht hbefore ?_
  cases o with
  | value v => exact absurd rfl (ho v)
  | fault f => rfl
  | panic q => rfl

end TestOver

end Story

/-- A body within a load, with whatever it has put on the stack. -/
theorem act_body {c : Code} {k : Nat} (su : Setup) (self : Nat) {f : Frame} {deep : List Frame}
    {ret : Option Outcome} {w : World} (ho : Orderly c (.within k) (f :: deep) ret)
    (hw : Hosted c (.within k) w) : ∃ es, Advance c w (f.act su w self ret).1 es ∧
      (∀ e ∈ es, c.Voices (.within k) e.kind) ∧
      Conduct c (.within k) w.core (f.act su w self ret).1.core ∧
      Orderly c (.within k) ((f.act su w self ret).2.onto deep).1 ((f.act su w self ret).2.onto deep).2 := by
  obtain ⟨hc, hm⟩ := Frame.behaves_act su self ho (by simp) hw
  obtain ⟨es, hv, hh, hl⟩ := hc.log
  have hd : (Role.within k).manners c = c.body := rfl
  refine ⟨es, ⟨?_, hh, fun hdr => hl hdr c.drives_body⟩, hv, hc, ho.onto hm⟩
  have hr := hc.toReach
  rwa [hd, c.drives_body] at hr

namespace Grounded

variable {c : Code} {k : Nat} {w v : World}

theorem hosted_registering (h : Grounded c w.core (.registering k)) : Hosted c (.within k) w where
  tests _ := h.2.1
  lock k' hk _ := by
    obtain rfl : k = k' := by cases hk; rfl
    exact h.1

theorem hosted_running (h : Grounded c w.core (.running k)) : Hosted c (.within k) w where
  tests _ := h.2
  lock k' hk _ := by
    obtain rfl : k = k' := by cases hk; rfl
    exact h.1

theorem holds (hc : Conduct c (.within k) w.core v.core)
    (h : w.core.lock.holder = some k ∧ k < w.core.lock.tickets) : v.core.lock.holder = some k ∧
    k < v.core.lock.tickets :=
  ⟨hc.holder.trans h.1, h.2.trans_le hc.tickets⟩

theorem registering (h : Grounded c w.core (.registering k))
    (hc : Conduct c (.within k) w.core v.core) : Grounded c v.core (.registering k) :=
  ⟨holds hc h.1, hc.tests h.2.1, fun hr => hc.unclosed hr (h.2.2 hr)⟩

theorem running (h : Grounded c w.core (.running k)) (hc : Conduct c (.within k) w.core v.core) :
    Grounded c v.core (.running k) := ⟨holds hc h.1, hc.tests h.2⟩

theorem emptied {l : Core} (h : Grounded c w.core (.running k)) (hl : l.lock = w.core.lock)
    (ht : l.registry.tests = []) : Grounded c l (.running k) := ⟨hl ▸ h.1, by simp [ht]⟩

end Grounded

theorem Keeps.of_conduct {c : Code} {self k : Nat} {w v : World} {phase : LoadPhase}
    (hc : Conduct c (.within k) w.core v.core) : Keeps c self w.lock v.lock phase phase :=
  .keep rfl hc.holder hc.tickets fun hl => hc.lock (.inl hl)

namespace Doing

variable {su : Setup} {c : Code} {p : String} {self k : Nat} {s : Story}
variable {below : List Frame} {w : World}

/-! Registering -/

theorem act_registering_body {f : Frame} {deep rest : List Frame} {ret : Option Outcome}
    (ho : s.Opened su c k p) (hr : s.ran = []) (hn : s.registration = none)
    (hb : Orderly c (.within k) (f :: deep) ret)
    (hg : Grounded c w.core (.registering k))
    (hrest : rest = deep ++ .load p (.registering k) :: below) :
    Progress su c p self s (.registering k) (f :: deep) ret below rest w (f.act su w self ret) := by
  obtain ⟨es, ha, hv, hc, hm⟩ := act_body su self hb hg.hosted_registering
  refine .on es { s with registered := s.registered ++ es } (.registering k) _ _ ha ⟨?_, ?_⟩
    (by rw [hrest]; exact Move.onto_append _ _ _)
    (.registering (ho.register hv) hr hn hm (Move.onto_left _ _))
    (hg.registering hc) (.of_conduct hc)
  · cases ret <;> rfl
  · simp [Story.log, hr, ho.closing]

theorem act_registered (o : Outcome) (ho : s.Opened su c k p) (hr : s.ran = [])
    (hg : Grounded c w.core (.registering k)) :
    Progress su c p self s (.registering k) [] (some o) below below w
      (Frame.resumeLoad w p (.registering k) o) := by
  have ho' : { s with registration := some o }.Opened su c k p := { ho with }
  have told (es : List LogEntry) : Tells s (.registering k) [] (some o) w es
      { s with registration := some o, closing := es } :=
    ⟨ho'.closing_append es, by simp [Story.log, ho.closing]⟩
  cases o with
  | value v =>
    have hs : { s with registration := some (.value v), closing := [] } =
        { s with registration := some (.value v) } := ho'.closing ▸ rfl
    exact .on [] _ (.registering k) [] none (.still rfl) (hs ▸ told []) rfl
      (.registered ho' hr ⟨v, rfl⟩) hg (.still rfl rfl)
  | fault f => exact off_failLoad _ (told _) rfl (.unregistered ho' hr rfl rfl)
  | panic q => exact off_failLoad _ (told _) rfl (.unregistered ho' hr rfl rfl)

theorem act_ready (ho : s.Opened su c k p) (hr : s.ran = []) (hl : s.Loaded)
    (hg : Grounded c w.core (.registering k)) :
    Progress su c p self s (.registering k) [] none below below w (Frame.runLoad su w self p (.registering k)) := by
  simp only [Frame.runLoad, Registry.beginRun]
  by_cases hs : w.registry.state = .running
  · have hruns : c.body.runs = true := by
      by_contra hn
      exact hg.2.2 (by simpa using hn) hs
    rw [if_pos hs]
    refine .on [⟨.fail, RegistryError.alreadyRunning.message⟩] _ (.running k) [] none
      (.own (g := w.registry) (l := w.lock) rfl) ⟨rfl, ?_⟩ rfl ?_ ⟨hg.1, hg.2.1⟩ (.still rfl rfl)
    · simp [Story.log, Story.observe, ho.closing]
    · have ho' : { s with taken := w.registry.tests }.Opened su c k p := { ho with }
      have : Doing su c p _ (.running k) [] none := .refused ho' hr hl hruns
      simpa [Story.observe, ho.closing] using this
  · rw [if_neg hs]
    refine .on [] { s with taken := w.registry.tests } (.running k) [.pass none w.registry.tests] none
      (.own (g := ⟨[], .running⟩) (l := w.lock) ?_) ⟨?_, ?_⟩ rfl
      (.passing { ho with } hl ⟨by simp [hr], by simp [hr]⟩ hg.2.1) ⟨hg.1, by simp [World.core]⟩ (.still rfl rfl)
    · simp [World.core, Log.appendAll]
    · simp [Story.observe]
    · simp [Story.log]

/-! The run pass -/

/-- The run pass was aborted by the test that was started last. -/
theorem on_abortPass {v : World} (es : List LogEntry) (s' : Story) {inner : List Frame}
    {ret : Option Outcome} (f : Frame.Failure)
    (hv : v.core = { w.core with log := w.log.appendAll es })
    (ht : Tells s (.running k) inner ret w (es ++ Ran.failed f) s') (ho : s'.Opened su c k p) (hl : s'.Loaded)
    (hc : s'.Concluded .aborted) (hg : Grounded c w.core (.running k)) :
    Progress su c p self s (.running k) inner ret below (.load p (.running k) :: below) w (Frame.abortPass v f) := by
  refine .on (es ++ Ran.failed f) s' (.running k) [] _
    (.own (g := ⟨[], .aborted⟩) (l := w.lock) ?_) ht rfl (.passed ho hl hc) ?_ (.still rfl ?_)
  · have hcore : (Frame.abortPass v f).1.core = { v.core with
        log := (v.core.log.append ⟨.fail, f.message⟩).append ⟨.stack, f.stack⟩
        registry := ⟨[], .aborted⟩ } := rfl
    exact hcore.trans (by rw [hv]; simp [Log.appendAll, Log.append, Ran.failed, World.core])
  · exact hg.emptied (congrArg Core.lock hv :) rfl
  · exact congrArg Core.lock hv

theorem act_passing {queue : List Test} (ho : s.Opened su c k p) (hl : s.Loaded) (hp : s.Passing queue)
    (hq : ∀ t ∈ queue, t.obeys c = true) (hg : Grounded c w.core (.running k)) :
    Progress su c p self s (.running k) [.pass none queue] none below (.load p (.running k) :: below) w
      (Frame.runPass w queue) := by
  cases queue with
  | nil =>
    refine .on [] s (.running k) [] _ (.own (g := ⟨[], .completed⟩) (l := w.lock) ?_)
      ⟨s.closing_nil, by simp⟩ rfl (.passed ho hl (.completed (by simpa using hp.taken) hp.completed))
      (hg.emptied rfl rfl) (.still rfl rfl)
    simp [World.core, Log.appendAll, Registry.finish]
  | cons t queue =>
    have hstart : ((w.append .subtest t.name).append .info (Subtest.entering t.name)).core =
        { w.core with log := w.log.appendAll [⟨.subtest, t.name⟩, ⟨.info, Subtest.entering t.name⟩] } := by
      simp [World.core, World.append, Log.append, Log.appendAll]
    have hsaid (r : Ran) (hr : r.said = []) : ∀ r' ∈ r :: s.ran, ∀ e ∈ r'.said, c.Voices (.within k) e.kind := by
      intro r' hm
      rcases List.mem_cons.1 hm with rfl | hm
      · simp [hr]
      · exact ho.said r' hm
    unfold Frame.runPass
    dsimp only
    cases he : t.early with
    | some q =>
      refine on_abortPass [⟨.subtest, t.name⟩, ⟨.info, Subtest.entering t.name⟩]
        { s with ran := ⟨t, [], some (.panic q)⟩ :: s.ran } _ hstart ⟨?_, ?_⟩ (ho.ran (hsaid _ rfl)) hl
        (.aborted rfl (?_ : s.taken = _ ++ queue) hp.completed rfl) hg
      · simp [Story.observe, he]
      · simp [Story.log, Ran.log, Ran.closing, ho.closing]
      · simp [hp.taken]
    | none =>
      refine .on [⟨.subtest, t.name⟩,
        ⟨.info, Subtest.entering t.name⟩] { s with ran := ⟨t, [], none⟩ :: s.ran }
        (.running k) ([.steps _ [] none t.body] ++ [.pass (some t) queue]) none
        (.own (g := w.registry) (l := w.lock) hstart) ⟨?_, ?_⟩ rfl ?_ hg (.still rfl rfl)
      · simp [Story.observe, he]
      · simp [Story.log, Ran.log, Ran.closing, ho.closing]
      · have hb : ∀ st ∈ t.body, st.obeys c c.body = true := Step.allObey_iff.1 (hq t (by simp))
        exact Doing.testing (ho.ran (hsaid _ rfl)) hl ⟨by simp [hp.taken], [], s.ran,
          rfl, hp.completed⟩
          (fun u hu => hq u (by simp [hu])) ⟨hb, by simp, by simp⟩ (by simp)

theorem act_testing_body {t : Test} {queue : List Test} {f : Frame} {deep rest : List Frame}
    {ret : Option Outcome} (ho : s.Opened su c k p) (hl : s.Loaded) (ht : s.Testing t queue)
    (hq : ∀ t ∈ queue, t.obeys c = true) (hb : Orderly c (.within k) (f :: deep) ret)
    (hg : Grounded c w.core (.running k))
    (hrest : rest = deep ++ .pass (some t) queue :: .load p (.running k) :: below) :
    Progress su c p self s (.running k) (f :: deep ++ [.pass (some t) queue]) ret below rest w
      (f.act su w self ret) := by
  obtain ⟨es, ha, hv, hc, hm⟩ := act_body su self hb hg.hosted_running
  obtain ⟨said, before, hran, hbefore⟩ := ht.last
  have hhear : s.hear es = { s with ran := ⟨t, said ++ es, none⟩ :: before } := by
    simp [Story.hear, hran]
  refine .on es (s.hear es) (.running k) (_ ++ [.pass (some t) queue]) _ ha ⟨?_, ?_⟩ ?_
    (.testing ?_ (by rwa [hhear]) ⟨?_, said ++ es, before, by rw [hhear], hbefore⟩ hq hm (Move.onto_left _ _))
    (hg.running hc)
    (.of_conduct hc)
  · cases deep <;> cases ret <;> rfl
  · rw [hhear, Story.log_cons hran ho.closing]
    simp [Story.log, Ran.log, Ran.closing, ho.closing]
  · rw [hrest, List.append_assoc]
    exact Move.onto_append _ deep _
  · rw [hhear]
    refine ho.ran fun r hr e he => ?_
    rcases List.mem_cons.1 hr with rfl | hr
    · rcases List.mem_append.1 he with he | he
      · exact ho.said ⟨t, said, none⟩ (by simp [hran]) e he
      · exact hv e he
    · exact ho.said r (by simp [hran, hr]) e he
  · rw [hhear, ht.taken, hran]
    simp

theorem act_tested {t : Test} {queue : List Test} (o : Outcome) (ho : s.Opened su c k p)
    (hl : s.Loaded) (ht : s.Testing t queue) (hq : ∀ t ∈ queue, t.obeys c = true)
    (hg : Grounded c w.core (.running k)) :
    Progress su c p self s (.running k) [.pass (some t) queue] (some o) below (.load p (.running k) :: below) w
      (Frame.resumePass w t queue o) := by
  obtain ⟨said, before, hran, -⟩ := ht.last
  have ho' : (s.conclude o).Opened su c k p := ho.conclude hran o
  have hl' : (s.conclude o).Loaded := by rwa [Story.conclude_cons hran]
  have told : Tells s (.running k) [.pass (some t) queue] (some o) w (Ran.mk t said (some o)).closing
      (s.conclude o) := ⟨rfl, Story.log_conclude hran ho.closing o⟩
  cases o with
  | value v =>
    exact .on [⟨.info, Subtest.leaving t.name⟩] (s.conclude (.value v)) (.running k) [.pass none queue] none
      (.own (g := w.registry) (l := w.lock) rfl) told rfl (.passing ho' hl' (ht.passing v) hq) hg (.still rfl rfl)
  | fault f =>
    exact on_abortPass [] _ (.ofFault f) (by simp [World.core, Log.appendAll]) told ho' hl' (ht.aborted (by simp)) hg
  | panic q =>
    exact on_abortPass [] _ (.ofPanic t.name q) (by simp [World.core, Log.appendAll]) told ho' hl'
      (ht.aborted (by simp)) hg

/-! The end -/

theorem act_passed {st : RunState} (ho : s.Opened su c k p) (hl : s.Loaded) (hc : s.Concluded st)
    (hg : Grounded c w.core (.running k)) :
    Progress su c p self s (.running k) [] (some (.value (.state st))) below below w
      (Frame.resumeLoad w p (.running k) (.value (.state st))) :=
  .on [] { s with verdict := some st } (.running k) [] none (.still rfl) ⟨by simp [Story.observe], by simp [Story.log]⟩
    rfl (.closing ho hl hc) hg (.still rfl rfl)

theorem act_closing {s' : Story} (ht : Tells s (.running k) [] none w [⟨.testEnd, p⟩] s')
    (ho : Over su c p s' (.value .done)) :
    Progress su c p self s (.running k) [] none below below w (Frame.runLoad su w self p (.running k)) := by
  refine .off [⟨.testEnd, p⟩] s' (.own (g := w.registry) (l := (w.lock.leave k).2) ?_) ht rfl rfl ?_ ho
  · rw [World.core_leaveLock]; rfl
  · exact congrArg Core.lock (World.core_leaveLock _ k)

/-- One move of the task that a load is in. -/
theorem act (self : Nat) {phase : LoadPhase} {inner rest : List Frame}
    {ret : Option Outcome} {f : Frame} (hd : Doing su c p s phase inner ret)
    (hc : ∀ sc ∈ su.catalog, sc.obeys c = true)
    (hg : Grounded c w.core phase) (hf : inner ++ .load p phase :: below = f :: rest) :
    Progress su c p self s phase inner ret below rest w (f.act su w self ret) := by
  cases hd with
  | arriving => obtain ⟨rfl, rfl⟩ := List.cons.inj hf; exact act_arriving
  | queueing k => obtain ⟨rfl, rfl⟩ := List.cons.inj hf; exact act_queueing hg
  | entered k => obtain ⟨rfl, rfl⟩ := List.cons.inj hf; exact act_entered hg
  | delayed k hs hd => exact act_delayed hs hd hg hf
  | loading k hs => obtain ⟨rfl, rfl⟩ := List.cons.inj hf; exact act_loading hs hc hg
  | registering ho hr hn hb hret =>
    cases inner with
    | nil =>
      obtain ⟨rfl, rfl⟩ := List.cons.inj hf
      obtain ⟨o, rfl⟩ := Option.isSome_iff_exists.1 (hret rfl)
      exact act_registered o ho hr hg
    | cons g deep =>
      obtain ⟨rfl, rfl⟩ := List.cons.inj hf
      exact act_registering_body ho hr hn hb hg rfl
  | registered ho hr hl => obtain ⟨rfl, rfl⟩ := List.cons.inj hf; exact act_ready ho hr hl hg
  | passing ho hl hp hq =>
    obtain ⟨rfl, rfl⟩ := List.cons.inj hf
    exact act_passing ho hl hp hq hg
  | @testing _ _ t queue deep _ ho hl ht hq hb hret =>
    cases deep with
    | nil =>
      obtain ⟨rfl, rfl⟩ := List.cons.inj hf
      obtain ⟨o, rfl⟩ := Option.isSome_iff_exists.1 (hret rfl)
      exact act_tested o ho hl ht hq hg
    | cons g deep =>
      obtain ⟨rfl, rfl⟩ := List.cons.inj hf
      exact act_testing_body ho hl ht hq hb hg (by simp)
  | passed ho hl hp => obtain ⟨rfl, rfl⟩ := List.cons.inj hf; exact act_passed ho hl hp hg
  | closing ho hl hp =>
    obtain ⟨rfl, rfl⟩ := List.cons.inj hf
    exact act_closing ⟨by simp [Story.observe, ho.closing], by simp [Story.log, ho.closing]⟩ (.ended ho hl hp)
  | refused ho hr hl hruns =>
    obtain ⟨rfl, rfl⟩ := List.cons.inj hf
    exact act_closing ⟨by simp [Story.observe], by simp [Story.log]⟩ (.refused ho hr hl hruns)

end Doing

end PageTest
