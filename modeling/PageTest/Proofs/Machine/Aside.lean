import PageTest.Proofs.Machine.Turn

/-! Steps of tasks that keep to a code, seen by everybody else. Of some tasks nothing is assumed;
all others keep to the code. Then in each step either one of the former moves or is given up, or all
of them are left alone. -/

namespace PageTest

variable {su : Setup} {may : Nat → Prop} {c : Code} {w w' : World}

theorem Deeds.congr {r : Role} {k k' l l' : Core} (h : Deeds c r k k') (h1 : l.log = k.log)
    (h2 : l.registry = k.registry)
    (h3 : l.lock = k.lock) (h1' : l'.log = k'.log) (h2' : l'.registry = k'.registry) (h3' : l'.lock = k'.lock) :
    Deeds c r l l' where
  log := by rw [h1, h1']; exact h.log
  tests := by rw [h2, h2']; exact h.tests
  unclosed := by rw [h2, h2']; exact h.unclosed
  registry := by rw [h2, h2']; exact h.registry
  holder := by rw [h3, h3']; exact h.holder
  tickets := by rw [h3, h3']; exact h.tickets
  lock := by rw [h3, h3']; exact h.lock

theorem Deeds.refl {r : Role} (k : Core) : Deeds c r k k := (Conduct.refl k).toDeeds

/-- A task of its own holds no ticket. -/
theorem Orderly.dropLocks {stack : List Frame} {ret : Option Outcome}
    (h : Orderly c .task stack ret) (l : Lock) : Core.dropLocks l stack = l := by
  have keep (f : Frame) (hf : f.Obeys c .task) (l : Lock) : Core.dropLocks l [f] = l := by
    cases f with
    | load path phase =>
      obtain ⟨-, rfl | ⟨k, k', hk, -⟩⟩ := hf
      · rfl
      · simp at hk
    | _ => rfl
  have all (fs : List Frame) (hf : ∀ f ∈ fs, f.Obeys c .task) : Core.dropLocks l fs = l := by
    induction fs with
    | nil => rfl
    | cons f fs ih =>
      have : Core.dropLocks l (f :: fs) = Core.dropLocks (Core.dropLocks l [f]) fs := rfl
      rw [this, keep f (hf f (by simp)), ih fun g hg => hf g (by simp [hg])]
  cases stack with
  | nil => rfl
  | cons f rest =>
    refine all _ fun g hg => ?_
    rcases List.mem_cons.1 hg with rfl | hg
    · exact h.1
    · exact (h.2.2 g hg).1

/-- All tasks but some keep to a code. -/
def Bystanders (c : Code) (P : Nat → Prop) (k : Core) : Prop :=
  ∀ i a, ¬ P i → k.tasks[i]? = some a → Orderly c .task a.stack a.returned

/-- A step that leaves some tasks alone, but that they may have been asked to end. -/
structure Quiet (may : Nat → Prop) (c : Code) (P : Nat → Prop) (w : World) (m : Option Nat)
    (w' : World) : Prop where
  mover : ∀ t, m = some t → ¬ P t
  idle : ∀ t, w.running = some t → ¬ P t
  now : w.now ≤ w'.now
  running : ∀ t, w'.running = some t → w.running = some t ∨ (w.running = none ∧ w.Able t)
  old : ∀ i a, P i → w.core.tasks[i]? = some a → ∃ a', w'.core.tasks[i]? = some a' ∧
    Untouched ((some i ∈ w.handles ∨ c.task.drives = true) ∨ may i) a a'
  bystanders : Bystanders c P w'.core
  handles : ∀ i, some i ∈ w'.handles → some i ∈ w.handles ∨ w.tasks.length ≤ i
  deeds : Deeds c .task w.core w'.core

/-- What a move of one task is to the others. -/
structure Aside (c : Code) (drives : Bool) (t : Nat) (k k' : Core) : Prop where
  now : k'.now = k.now
  running : k'.running = k.running ∨ k'.running = none
  old : ∀ i a, i ≠ t → k.tasks[i]? = some a →
    ∃ a', k'.tasks[i]? = some a' ∧ Untouched (some i ∈ k.handles ∨ drives = true) a a'
  new : ∀ i a, k.tasks.length ≤ i → k'.tasks[i]? = some a →
    a.returned = none ∧ a.ended = none ∧ Orderly c .task a.stack none
  handles : ∀ i, some i ∈ k'.handles → some i ∈ k.handles ∨ k.tasks.length ≤ i

theorem Reach.aside {drives : Bool} {t : Nat} {k k' : Core} {rest : List Frame} {m : Move}
    (h : Reach c drives k k') (ht : t < k.tasks.length) :
    Aside c drives t k (k'.settle t rest m) where
  now := by rw [Core.settle_now, h.now]
  running := by
    rw [Core.settle_running, h.running]
    split_ifs
    · exact .inr rfl
    · exact .inl rfl
  old i a hi ha := by rw [Core.settle_other hi]; exact h.old i a ha
  new i a hi ha := by rw [Core.settle_other (by omega)] at ha; exact h.new i a hi ha
  handles := by rw [Core.settle_handles]; exact h.handles

theorem Aside.stop {drives : Bool} {t : Nat} (k : Core) :
    Aside c drives t k { k with running := none } where
  now := rfl
  running := .inr rfl
  old i a _ ha := ⟨a, ha, .refl a⟩
  new i a hi ha := by simp [List.getElem?_eq_none hi] at ha
  handles i := .inl

/-- A task that has nothing left to do is of no matter to the others. -/
theorem World.aside_runTask_nil {drives : Bool} {t : Nat} {a : Activity}
    (ha : w.core.tasks[t]? = some a) (hs : a.stack = []) :
    Aside c drives t w.core (w.runTask su t).core := by
  have ht := lt_of_getElem? ha
  rw [core_runTask_nil su ha hs]
  refine ⟨rfl, .inr rfl, ?_, ?_, fun i => .inl⟩
  · intro i b hi hb
    refine ⟨b, ?_, .refl b⟩
    dsimp only
    split_ifs
    · exact hb
    · rw [List.getElem?_modify]; simp [hi.symm, hb]
  · intro i b hi hb
    have : (if t = 0 then w.core.tasks else w.core.tasks.modify t (·.finish (reportOf (a.returned.getD (.value .done))))
        )[i]? = none := by
      apply List.getElem?_eq_none
      split_ifs <;> simpa using hi
    simp [this] at hb

namespace Aside

variable {drives : Bool} {t : Nat} {k k' : Core} {P : Nat → Prop}

theorem bystanders (h : Aside c drives t k k') (hb : Bystanders c P k)
    (ht : ∀ a, ¬ P t → k'.tasks[t]? = some a → Orderly c .task a.stack a.returned) :
    Bystanders c P k' := by
  intro i a' hi ha'
  by_cases hit : i = t
  · subst hit
    exact ht a' hi ha'
  · rcases Nat.lt_or_ge i k.tasks.length with hlt | hge
    · obtain ⟨b, hb', hu⟩ := h.old i _ hit (List.getElem?_eq_getElem hlt)
      obtain rfl : a' = b := by rw [ha'] at hb'; exact Option.some.inj hb'
      rw [hu.stack, hu.returned]
      exact hb i _ hi (List.getElem?_eq_getElem hlt)
    · obtain ⟨hr, -, ho⟩ := h.new i a' hge ha'
      rw [hr]
      exact ho

/-- A task that keeps to the code moved. -/
theorem quiet (h : Aside c c.task.drives t w.core w'.core) (hr : w.running = some t) (hP : ¬ P t)
    (hb : Bystanders c P w.core)
    (ht : ∀ a, w'.core.tasks[t]? = some a → Orderly c .task a.stack a.returned)
    (hd : Deeds c .task w.core w'.core) : Quiet may c P w (some t) w' where
  mover u hu := by obtain rfl := Option.some.inj hu; exact hP
  idle u hu := by obtain rfl := Option.some.inj (hr.symm.trans hu); exact hP
  now := h.now.ge
  running u hu := by
    rcases h.running with h1 | h1
    · exact .inl (h1.symm.trans hu)
    · exact absurd (h1.symm.trans hu) (by simp)
  old i a hi ha := by
    obtain ⟨a', ha', hu⟩ := h.old i a (fun he => hP (he ▸ hi)) ha
    exact ⟨a', ha', (Untouched.refl a).trans hu .inl⟩
  bystanders := h.bystanders hb fun a _ => ht a
  handles i hi := by rw [← World.length_core]; exact h.handles i hi
  deeds := hd

end Aside

theorem Activity.moved_orderly {a : Activity} {rest : List Frame} {m : Move} {r : Role}
    (h : Orderly c r (m.onto rest).1 (m.onto rest).2) :
    Orderly c r (a.moved rest m).stack (a.moved rest m).returned := by
  by_cases hw : m.waits = true ∧ a.cancelled = true
  · rw [moved_cancelled hw]
    trivial
  · rw [moved_onto hw]
    exact h

theorem quiet_move {P : Nat → Prop} {t : Nat} (hr : w.running = some t) (hP : ¬ P t)
    (hb : Bystanders c P w.core)
    (hl : ∀ a f rest, w.core.tasks[t]? = some a → a.stack = f :: rest → f.isLoad = false) :
    Quiet may c P w (some t) (w.runTask su t) := by
  cases ha : w.core.tasks[t]? with
  | none =>
    have hc := World.core_runTask_none su ha
    refine Aside.quiet (by rw [hc]; exact .stop _) hr hP hb ?_
      (by rw [hc]; exact (Deeds.refl w.core).congr rfl rfl rfl rfl rfl rfl)
    intro a h
    simp [hc, ha] at h
  | some a =>
    have ho := hb t a hP ha
    cases hs : a.stack with
    | nil =>
      have hc := World.core_runTask_nil su ha hs
      refine (World.aside_runTask_nil ha hs).quiet hr hP hb ?_
        (by rw [hc]; exact (Deeds.refl w.core).congr rfl rfl rfl rfl rfl rfl)
      intro b hb'
      suffices h : b.stack = [] by rw [h]; trivial
      rw [hc] at hb'
      split_ifs at hb'
      · obtain rfl := Option.some.inj (ha.symm.trans hb')
        exact hs
      · simp only [List.getElem?_modify, ha] at hb'
        obtain rfl := Option.some.inj hb'
        simp [Activity.finish]
    | cons f rest =>
      rw [hs] at ho
      obtain ⟨hc, hm⟩ := Frame.behaves_act su t ho (fun _ => hl a f rest ha hs)
        ⟨by simp [Role.manners, c.runs_task], by simp⟩
      have hcore := World.core_runTask su ha hs
      obtain ⟨a', ha', hu⟩ := hc.old t a ha
      refine Aside.quiet (by rw [hcore]; exact hc.toReach.aside (lt_of_getElem? ha)) hr hP hb ?_ ?_
      · intro b hb'
        rw [hcore, Core.settle_self ha'] at hb'
        obtain rfl := Option.some.inj hb'
        exact Activity.moved_orderly (ho.onto hm)
      · rw [hcore]
        refine hc.toDeeds.congr rfl rfl rfl (Core.settle_log ..) (Core.settle_registry ..) ?_
        rw [Core.settle_lock ha']
        split_ifs
        · exact (ho.onto hm).dropLocks _
        · rfl

/-! Steps of nobody -/

namespace World

theorem Later.quiet {P : Nat → Prop} (h : w.Later w') (hr : w.running = none)
    (hb : Bystanders c P w.core) (ht : ∀ t, w'.running = some t → w.Able t) :
    Quiet may c P w none w' := by
  have htasks : w'.core.tasks = w.core.tasks := by rw [h.core]
  have hhandles : w'.core.handles = w.core.handles := by rw [h.core]
  refine ⟨by simp, by simp [hr], h.now, fun t hu => .inr ⟨hr, ht t hu⟩,
    fun i a _ ha => ⟨a, by rw [htasks, ha], .refl a⟩,
    fun i a hi ha => hb i a hi (by rw [← htasks, ha]),
    fun i hi => .inl (by rw [← show w'.handles = w.handles from hhandles]; exact hi), ?_⟩
  rw [h.core]
  exact (Deeds.refl w.core).congr rfl rfl rfl rfl rfl rfl

theorem core_drop {v : World} {t : Nat} (h : w.Later v) (hr : v.running = none) :
    (v.cancelNow t).core = { w.core with now := v.now, running := none }.cancelNow t := by
  rw [core_cancelNow, h.core, hr]

/-- A task that keeps to the code is given up. -/
theorem Later.quiet_drop {P : Nat → Prop} {v : World} {t : Nat} (h : w.Later v)
    (hr : w.running = none)
    (hv : v.running = none) (hP : ¬ P t) (hb : Bystanders c P w.core) :
    Quiet may c P w none (v.cancelNow t) := by
  have hc := core_drop (t := t) h hv
  have htasks (i : Nat) (hi : i ≠ t) : (v.cancelNow t).core.tasks[i]? = w.core.tasks[i]? := by
    rw [hc]; simp [Core.cancelNow, hi.symm]
  refine ⟨by simp, by simp [hr], ?_, ?_, fun i a hi ha => ⟨a, ?_, .refl a⟩, fun i a hi ha => ?_,
    fun i hi => .inl ?_, ?_⟩
  · have : (v.cancelNow t).now = v.now := congrArg Core.now hc
    rw [this]; exact h.now
  · intro u hu
    have : (v.cancelNow t).running = none := congrArg Core.running hc
    simp [this] at hu
  · rw [htasks i fun he => hP (he ▸ hi), ha]
  · by_cases hit : i = t
    · subst hit
      suffices hs : a.stack = [] by rw [hs]; trivial
      rw [hc] at ha
      simp only [Core.cancelNow, List.getElem?_modify] at ha
      obtain ⟨b, -, rfl⟩ := Option.map_eq_some_iff.1 ha
      simp [Activity.finish]
    · exact hb i a hi (htasks i hit ▸ ha)
  · have : (v.cancelNow t).handles = w.handles := congrArg Core.handles hc
    exact this ▸ hi
  · rw [hc]
    refine (Deeds.refl w.core).congr rfl rfl rfl rfl rfl ?_
    show Core.dropLocks w.core.lock ((w.core.tasks[t]?.map (·.stack)).getD []) = w.core.lock
    cases ha : w.core.tasks[t]? with
    | none => rfl
    | some a => exact (hb t a hP ha).dropLocks _

theorem quiet_cancel {P : Nat → Prop} {t : Nat} (hr : w.running = none) (ht : may t)
    (hb : Bystanders c P w.core) : Quiet may c P w none (w.cancel t) := by
  have hc := core_cancel w t
  have htasks (i : Nat) (a : Activity) (ha : w.core.tasks[i]? = some a) : ∃ a', (w.cancel t).core.tasks[i]? = some a' ∧
      Untouched ((some i ∈ w.handles ∨ c.task.drives = true) ∨ may i) a a' := by
    rw [hc]
    by_cases hi : t = i
    · subst hi
      refine ⟨if a.ended.isSome then a else { a with cancelled := true }, by simp [ha], ?_⟩
      split_ifs
      · exact .refl a
      · exact ⟨rfl, rfl, rfl, fun _ => rfl, .inr (.inr ht)⟩
    · exact ⟨a, by simp [hi, ha], .refl a⟩
  have hlen : (w.cancel t).core.tasks.length = w.core.tasks.length := by rw [hc]; simp
  refine ⟨by simp, by simp [hr], (congrArg Core.now hc).ge, ?_, fun i a _ ha => htasks i a ha,
    fun i a hi ha => ?_,
    fun i hi => .inl ?_, ?_⟩
  · intro u hu
    have : (w.cancel t).running = w.running := congrArg Core.running hc
    simp [this, hr] at hu
  · have hlt : i < w.core.tasks.length := hlen ▸ lt_of_getElem? ha
    obtain ⟨b, hb', hu⟩ := htasks i _ (List.getElem?_eq_getElem hlt)
    obtain rfl : a = b := by rw [ha] at hb'; exact Option.some.inj hb'
    rw [hu.stack, hu.returned]
    exact hb i _ hi (List.getElem?_eq_getElem hlt)
  · have : (w.cancel t).handles = w.handles := congrArg Core.handles hc
    exact this ▸ hi
  · rw [hc]
    exact (Deeds.refl w.core).congr rfl rfl rfl rfl rfl rfl

end World

/-- A step is a move of one of the tasks of which nothing is assumed, or gives one of them up, or
leaves them alone. -/
theorem Next.split {P : Nat → Prop} {m : Option Nat} (hn : Next su may w m w')
    (hb : Bystanders c P w.core)
    (hl : ∀ t a f rest, ¬ P t → w.core.tasks[t]? = some a → a.stack = f :: rest → f.isLoad = false) :
    (∃ t, P t ∧ m = some t ∧ w.running = some t ∧ w' = w.runTask su t) ∨
    (∃ t v, P t ∧ m = none ∧ w.running = none ∧ w.Doomed t ∧ w.Later v ∧ v.running = none ∧ w' = v.cancelNow t) ∨
    Quiet may c P w m w' := by
  cases hn with
  | @move t hr =>
    by_cases hP : P t
    · exact .inl ⟨t, hP, rfl, hr, rfl⟩
    · exact .inr (.inr (quiet_move hr hP hb fun a f rest => hl t a f rest hP))
  | rest hr hv ht => exact .inr (.inr (hv.quiet hr hb ht))
  | @drop v t hr hv hvr hd =>
    by_cases hP : P t
    · exact .inr (.inl ⟨t, v, hP, rfl, hr, hd, hv, hvr, rfl⟩)
    · exact .inr (.inr (hv.quiet_drop hr hvr hP hb))
  | abort hr ht => exact .inr (.inr (World.quiet_cancel hr ht hb))

end PageTest
