import PageTest.Proofs.Load.Pass
import PageTest.Proofs.Machine.Aside

/-! The task of a load, from its start to its end. Whatever the others do, it is where its story
says. -/

namespace PageTest

/-- Where the task of a load stands. -/
inductive LoadTask (su : Setup) (c : Code) (p : String) (s : Story) (a : Activity) (k : Core) : Prop
  | live {phase : LoadPhase} {inner : List Frame} : a.stack = inner ++ [.load p phase] →
      a.ended = none → Doing su c p s phase inner a.returned → Grounded c k phase →
      LoadTask su c p s a k
  | left {o : Outcome} : a.stack = [] → a.returned = some o → a.ended = none → Over su c p s o →
      LoadTask su c p s a k
  | ended {o : Outcome} : a.stack = [] → a.ended = some (World.reportOf o) → Over su c p s o →
      LoadTask su c p s a k
  | cancelled : a.stack = [] → a.ended = some .cancelled → a.cancelled = true →
      LoadTask su c p s a k

theorem Act.entries_eq {m : Option Nat} {w w' : World} {es : List LogEntry}
    (h : w'.log.history = w.log.history ++ es) : (Act.mk m w w').entries = es := by
  simp [Act.entries, h]

theorem Untouched.eq {asked : Prop} {a a' : Activity} (h : Untouched asked a a')
    (hn : ¬ asked) : a' = a := by
  obtain ⟨st, rt, en, ca⟩ := a
  obtain ⟨st', rt', en', ca'⟩ := a'
  obtain ⟨rfl, rfl, rfl, -, h5⟩ := h
  obtain rfl : ca' = ca := h5.resolve_right hn
  rfl

/-- A move that wrote nothing. -/
theorem Deeds.history_task {c : Code} {k k' : Core} (h : Deeds c .task k k') :
    k'.log.history = k.log.history := by
  obtain ⟨es, hv, hh, -⟩ := h.log
  have hnil : es = [] := List.eq_nil_iff_forall_not_mem.2 fun e he => Code.not_voices_task (hv e he)
  rw [hh, hnil, List.append_nil]

theorem Grounded.deeds {c : Code} {k k' : Core} {phase : LoadPhase} (h : Grounded c k phase)
    (hd : Deeds c .task k k') : Grounded c k' phase := by
  have hl : k'.lock = k.lock := hd.lock (.inr rfl)
  cases phase with
  | arriving => trivial
  | queueing t => exact (show t < k'.lock.tickets from hl ▸ h)
  | entered t => exact (show k'.lock.holder = some t ∧ t < k'.lock.tickets from hl ▸ h)
  | loading t => exact ⟨hl.symm ▸ h.1, hd.tests h.2.1, fun hr => hd.unclosed c.runs_task (h.2.2 hr)⟩
  | registering t => exact ⟨hl.symm ▸ h.1, hd.tests h.2.1,
      fun hr => hd.unclosed c.runs_task (h.2.2 hr)⟩
  | running t => exact ⟨hl.symm ▸ h.1, hd.tests h.2⟩

theorem Grounded.congr {c : Code} {k k' : Core} {phase : LoadPhase} (h : Grounded c k phase)
    (hl : k'.lock = k.lock) (hr : k'.registry = k.registry) : Grounded c k' phase := by
  cases phase <;> simp only [Grounded, hl, hr] at * <;> exact h

namespace Story

theorem see_load (s : Story) (w' : World) {t : Nat} {w : World} {a : Activity} {inner : List Frame}
    {below : List Frame}
    {p : String} {phase : LoadPhase} (ha : w.core.tasks[t]? = some a)
    (hs : a.stack = inner ++ .load p phase :: below)
    (hb : ∀ f ∈ below, f.isLoad = false) :
    s.see ⟨some t, w, w'⟩ = s.observe phase inner a.returned w.registry.tests (Act.mk (some t) w w').entries := by
  simp [see, Act.activity?, ha, hs, spot?_load hb]

theorem see_eq {s : Story} {t : Nat} {w w' : World} {a : Activity} {inner : List Frame}
    {below : List Frame} {p : String} {phase : LoadPhase} {es : List LogEntry}
    (ha : w.core.tasks[t]? = some a) (hs : a.stack = inner ++ .load p phase :: below)
    (hb : ∀ f ∈ below, f.isLoad = false)
    (he : w'.log.history = w.log.history ++ es) :
    s.see ⟨some t, w, w'⟩ = s.observe phase inner a.returned w.registry.tests es := by
  rw [see_load s w' ha hs hb, Act.entries_eq he]

theorem see_none {s : Story} {t : Nat} {w w' : World} {a : Activity}
    (ha : w.core.tasks[t]? = some a) (hs : spot? a.stack = none) : s.see ⟨some t, w, w'⟩ = s := by
  simp [see, Act.activity?, ha, hs]

end Story

namespace LoadTask

variable {su : Setup} {c : Code} {p : String} {s : Story} {a : Activity} {L : Nat} {w w' : World}

theorem fresh : LoadTask su c p .blank (.fresh [.load p .arriving]) w.core :=
  .live (rfl : _ = [] ++ [_]) rfl .arriving trivial

/-- All that a load knows of the rest of the world is what it is grounded on. -/
theorem carry {k k' : Core} {cancelled : Bool} (h : LoadTask su c p s a k)
    (hg : ∀ phase, Grounded c k phase → Grounded c k' phase) (hc : a.cancelled = true → cancelled = true) :
    LoadTask su c p s { a with cancelled } k' := by
  cases h with
  | live hs he hdo hgrounded => exact .live hs he hdo (hg _ hgrounded)
  | left hs hr he ho => exact .left hs hr he ho
  | ended hs he ho => exact .ended hs he ho
  | cancelled hs he hasked => exact .cancelled hs he (hc hasked)

theorem deeds {k k' : Core} (h : LoadTask su c p s a k) (hd : Deeds c .task k k') :
    LoadTask su c p s a k' := h.carry (fun _ hg => hg.deeds hd) id

theorem congr {k k' : Core} (h : LoadTask su c p s a k) (hl : k'.lock = k.lock)
    (hr : k'.registry = k.registry) : LoadTask su c p s a k' := h.carry (fun _ hg => hg.congr hl hr) id

/-- The task was asked to end. -/
theorem ask {k k' : Core} (h : LoadTask su c p s a k) (hl : k'.lock = k.lock)
    (hr : k'.registry = k.registry) : LoadTask su c p s { a with cancelled := true } k' :=
  h.carry (fun _ hg => hg.congr hl hr) fun _ => rfl

/-- The task was given up. -/
theorem finish {k : Core} (hc : a.cancelled = true) : LoadTask su c p s (a.finish .cancelled) k :=
  .cancelled rfl rfl hc

/-- What a move of the task of a load comes to. -/
structure Moved (su : Setup) (c : Code) (p : String) (s : Story) (L : Nat) (a : Activity)
    (w w' : World) : Prop where
  aside : Aside c false L w.core w'.core
  told : (s.see ⟨some L, w, w'⟩).log = s.log ++ (Act.mk (some L) w w').entries
  log : c.body.drains = false → w'.log = w.log.appendAll (Act.mk (some L) w w').entries
  task : ∃ a', w'.core.tasks[L]? = some a' ∧ a'.cancelled = a.cancelled ∧
    (w'.running ≠ none → a'.ended = none) ∧
    LoadTask su c p (s.see ⟨some L, w, w'⟩) a' w'.core

theorem move (h : LoadTask su c p s a w.core) (ha : w.core.tasks[L]? = some a)
    (he : a.ended = none) (h0 : L ≠ 0) (hL : some L ∉ w.handles)
    (hc : ∀ sc ∈ su.catalog, sc.obeys c = true) : Moved su c p s L a w (w.runTask su L) := by
  have hlt := lt_of_getElem? ha
  cases h with
  | @live phase inner hs _ hd hg =>
    obtain ⟨f, rest, hf⟩ : ∃ f rest, inner ++ [.load p phase] = f :: rest :=
      List.exists_cons_of_ne_nil (by simp)
    have hp := hd.act L hc hg hf
    have hcore := World.core_runTask su ha (hs.trans hf)
    rcases hact : f.act su w L a.returned with ⟨v, m⟩
    rw [hact] at hp hcore
    have hlog : (w.runTask su L).log = v.log := (congrArg Core.log hcore).trans (Core.settle_log ..)
    have hself (hr : Reach c false w.core v.core) : v.core.tasks[L]? = some a := by
      obtain ⟨a', ha', hu⟩ := hr.old L a ha
      rw [ha', hu.eq (by simpa using fun h : some L ∈ w.core.handles => hL h)]
    have told {es : List LogEntry} {s' : Story} (hadv : Advance c w v es)
        (ht : Tells s phase inner a.returned w es s')
        (htask : ∃ a', (w.runTask su L).core.tasks[L]? = some a' ∧ a'.cancelled = a.cancelled ∧
          ((w.runTask su L).running ≠ none → a'.ended = none) ∧ LoadTask su c p s' a' (w.runTask su L).core) :
        Moved su c p s L a w (w.runTask su L) := by
      have hh : (w.runTask su L).log.history = w.log.history ++ es := by rw [hlog, hadv.history]
      have hsee : s.see ⟨some L, w, w.runTask su L⟩ = s' := (Story.see_eq ha hs (by simp) hh).trans ht.story
      refine ⟨by rw [hcore]; exact hadv.reach.aside hlt, ?_, fun hdr => ?_, hsee ▸ htask⟩
      · rw [hsee, ht.log, Act.entries_eq hh]
      · rw [hlog, Act.entries_eq hh, hadv.log hdr]
    cases hp with
    | on es s' phase' inner' ret' hadv ht hm hd' hg' hk =>
      have hrun : (w.runTask su L).running = if m.waits then none else v.running :=
        (congrArg Core.running hcore).trans Core.settle_running
      refine told hadv ht ⟨a.moved rest m, by rw [hcore, Core.settle_self (hself hadv.reach)], ?_, fun hr => ?_, ?_⟩
      · cases m with
        | halt g => simp only [Activity.moved]; split_ifs <;> rfl
        | _ => rfl
      · cases m with
        | halt g => simp [hrun, Move.waits] at hr
        | _ => exact he
      · rw [hcore]
        by_cases hw : m.waits = true ∧ a.cancelled = true
        · rw [Activity.moved_cancelled hw]
          exact finish hw.2
        · rw [Activity.moved_onto hw, hm]
          refine .live ?_ he hd' (hg'.congr ?_ (Core.settle_registry ..))
          · rfl
          rw [Core.settle_lock (hself hadv.reach), if_neg hw]
    | @off _ k o es s' hadv ht hrest hk hl ho =>
      subst hrest
      exact told hadv ht ⟨a.put [] (some o), by rw [hcore, Core.settle_self (hself hadv.reach)]; rfl, rfl,
        fun _ => he, .left rfl rfl he ho⟩
  | @left o hs hr _ ho =>
    have hcore := World.core_runTask_nil su ha hs
    have hlog : (w.runTask su L).log = w.log := congrArg Core.log hcore
    have hh : (w.runTask su L).log.history = w.log.history ++ [] := by rw [hlog, List.append_nil]
    have hsee : s.see ⟨some L, w, w.runTask su L⟩ = s := Story.see_none ha (by rw [hs]; rfl)
    refine ⟨World.aside_runTask_nil ha hs, ?_, fun _ => ?_, a.finish (World.reportOf o), ?_, rfl,
      fun hr => ?_, ?_⟩
    · rw [hsee, Act.entries_eq hh, List.append_nil]
    · rw [Act.entries_eq hh, hlog]; simp [Log.appendAll]
    · rw [hcore]
      simp [h0, ha, hr]
    · exact absurd (congrArg Core.running hcore) hr
    · rw [hsee]
      exact .ended rfl rfl ho
  | ended _ h _ => simp [he] at h
  | cancelled _ h _ => simp [he] at h

end LoadTask

end PageTest
