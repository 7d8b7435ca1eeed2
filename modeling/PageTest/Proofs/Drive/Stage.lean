import PageTest.Proofs.Load.Task

/-! A driver and the load that it started, among tasks that keep to a code. As long as the driver
does not move, whatever is written is written by the load. -/

namespace PageTest

/-- What tasks of their own have to leave alone while a driver watches a load. -/
structure Code.Mute (c : Code) : Prop where
  drains : c.task.drains = false
  drives : c.task.drives = false
  loads : c.task.loads = false
  body : c.body.drains = false

theorem Code.Mute.no_loads {c : Code} (h : c.Mute) {f : Frame} {rest : List Frame}
    {ret : Option Outcome} (ho : Orderly c .task (f :: rest) ret) : f.isLoad = false := by
  cases f with
  | load path phase => exact absurd ho.1.1 (by simp [Role.manners, h.loads])
  | _ => rfl

/-- The task `D` drives, the task `L` loads, and `a` is what the latter is in the middle of. -/
structure Stage (su : Setup) (c : Code) (p : String) (D L : Nat) (acts : List Act) (w : World)
    (a : Activity) : Prop where
  apart : L ≠ D
  main : L ≠ 0
  load : w.core.tasks[L]? = some a
  task : LoadTask su c p (story L acts) a w.core
  told : (story L acts).log = said L acts
  others : Bystanders c (fun i => i = D ∨ i = L) w.core
  handles : some L ∉ w.handles
  turn : w.running = some L → a.ended = none ∧ a.cancelled = false

/-- A step that is not the driver's. -/
structure Backstage (su : Setup) (c : Code) (p : String) (D L : Nat) (acts : List Act)
    (m : Option Nat) (w w' : World) (a a' : Activity) : Prop where
  stage : Stage su c p D L (acts ++ [⟨m, w, w'⟩]) w' a'
  cancelled : a'.cancelled = a.cancelled
  ended : a.ended.isSome = true → a'.ended = a.ended
  idle : w.running ≠ some D
  driver : ∀ x, w.core.tasks[D]? = some x →
    ∃ x', w'.core.tasks[D]? = some x' ∧ x'.stack = x.stack ∧ x'.returned = x.returned
  now : w.now ≤ w'.now
  log : ∃ es, w'.log = w.log.appendAll es ∧ said L (acts ++ [⟨m, w, w'⟩]) = said L acts ++ es ∧
    (a.cancelled = true ∨ a.ended.isSome = true → es = [])
  turn : w'.running = some L → w.running = some L ∨ a.cancelled = false

namespace Stage

variable {su : Setup} {c : Code} {p : String} {D L : Nat} {acts : List Act} {w w' : World}
variable {a : Activity}

/-- A move of the driver is none of the load. -/
theorem said_driver (h : Stage su c p D L acts w a) (w' : World) :
    said L (acts ++ [⟨some D, w, w'⟩]) = said L acts := by
  simp [said_singleton, h.apart.symm]

/-- The load moves. -/
theorem backstage_move (h : Stage su c p D L acts w a) (hm : c.Mute)
    (hc : ∀ sc ∈ su.catalog, sc.obeys c = true)
    (hr : w.running = some L) :
    ∃ a', Backstage su c p D L acts (some L) w (w.runTask su L) a a' := by
  obtain ⟨he, hca⟩ := h.turn hr
  have hmv := h.task.move h.load he h.main h.handles hc
  obtain ⟨a', ha', hca', hend, ht⟩ := hmv.task
  have hstory : story L (acts ++ [⟨some L, w, w.runTask su L⟩]) = (story L acts).see ⟨some L, w,
    w.runTask su L⟩ := by
    rw [story_snoc, if_pos rfl]
  have hsaid : said L (acts ++ [⟨some L, w, w.runTask su L⟩]) =
      said L acts ++ (Act.mk (some L) w (w.runTask su L)).entries := by
    rw [said_append, said_singleton, if_pos rfl]
  refine ⟨a', ⟨h.apart, h.main, ha', hstory ▸ ht, ?_, ?_, ?_, fun hr' => ⟨hend (by simp [hr']), hca'.trans hca⟩⟩, hca',
    by simp [he], by simp [hr,
    h.apart], fun x hx => ?_, hmv.aside.now.ge, ⟨_, hmv.log hm.body, hsaid, by simp [he, hca]⟩,
    fun _ => .inl hr⟩
  · rw [hstory, hsaid, hmv.told, h.told]
  · exact hmv.aside.bystanders h.others fun b hb => absurd (.inr rfl) hb
  · intro hL
    rcases hmv.aside.handles L hL with h1 | h1
    · exact h.handles h1
    · exact absurd (lt_of_getElem? h.load) (by omega)
  · obtain ⟨x', hx', hu⟩ := hmv.aside.old D x (fun he => h.apart he.symm) hx
    exact ⟨x', hx', hu.stack, hu.returned⟩

/-- The load is given up. -/
theorem backstage_drop {v : World} (h : Stage su c p D L acts w a) (hr : w.running = none)
    (hd : w.Doomed L)
    (hv : w.Later v) (hvr : v.running = none) :
    ∃ a', Backstage su c p D L acts none w (v.cancelNow L) a a' := by
  obtain ⟨b, hb, he, hca⟩ := hd
  obtain rfl : a = b := Option.some.inj (h.load.symm.trans hb)
  have hcore := World.core_drop (t := L) hv hvr
  have hlog : (v.cancelNow L).log = w.log := congrArg Core.log hcore
  have hrun : (v.cancelNow L).running = none := congrArg Core.running hcore
  have hother (i : Nat) (hi : i ≠ L) : (v.cancelNow L).core.tasks[i]? = w.core.tasks[i]? := by
    rw [hcore]; simp [Core.cancelNow, hi.symm]
  have hstory : story L (acts ++ [⟨none, w, v.cancelNow L⟩]) = story L acts := by rw [story_snoc,
    if_neg (by simp)]
  have hsaid : said L (acts ++ [⟨none, w, v.cancelNow L⟩]) = said L acts := by simp [said_singleton]
  refine ⟨a.finish .cancelled,
    ⟨h.apart, h.main, ?_, .finish hca, ?_, fun i b hi hb' => ?_, ?_, by simp [hrun]⟩, rfl,
    by simp [he], by simp [hr], fun x hx => ⟨x, by rw [hother D h.apart.symm, hx], rfl, rfl⟩, ?_,
    ⟨[], by rw [hlog]; simp [Log.appendAll], by simp [hsaid], by simp⟩, by simp [hrun]⟩
  · rw [hcore]
    simp [Core.cancelNow, h.load]
  · rw [hstory, hsaid, h.told]
  · exact h.others i b hi (by rw [← hother i fun he => hi (.inr he), hb'])
  · have : (v.cancelNow L).handles = w.handles := congrArg Core.handles hcore
    rw [this]
    exact h.handles
  · have : (v.cancelNow L).now = v.now := congrArg Core.now hcore
    rw [this]
    exact hv.now

theorem backstage_quiet {m : Option Nat} (h : Stage su c p D L acts w a) (hm : c.Mute)
    (hq : Quiet (fun _ => False) c (fun i => i = D ∨ i = L) w m w') :
    ∃ a', Backstage su c p D L acts m w w' a a' := by
  obtain ⟨a', ha', hu⟩ := hq.old L a (.inr rfl) h.load
  obtain rfl := hu.eq (by simp [h.handles, hm.drives])
  have hmL : m ≠ some L := fun he => hq.mover L he (.inr rfl)
  have hstory : story L (acts ++ [⟨m, w, w'⟩]) = story L acts := by rw [story_snoc, if_neg hmL]
  have hsaid : said L (acts ++ [⟨m, w, w'⟩]) = said L acts := by simp [said_singleton, hmL]
  obtain ⟨es, hv, -, hl⟩ := hq.deeds.log
  have hnil : es = [] := List.eq_nil_iff_forall_not_mem.2 fun e he => Code.not_voices_task (hv e he)
  have hable : w'.running = some L → a'.ended = none ∧ a'.cancelled = false := by
    intro hr
    rcases hq.running L hr with h1 | ⟨-, h1 | ⟨b, hb, h2⟩⟩
    · exact h.turn h1
    · exact absurd h1 h.main
    · obtain rfl := Option.some.inj (h.load.symm.trans hb)
      exact h2
  refine ⟨a', ⟨h.apart, h.main, ha', ?_, ?_, hq.bystanders, ?_, hable⟩, rfl, fun _ => rfl,
    fun hr => hq.idle D hr (.inl rfl), fun x hx => ?_, hq.now, ⟨[], ?_, by simp [hsaid], by simp⟩,
    fun hr => .inr (hable hr).2⟩
  · rw [hstory]
    exact h.task.deeds hq.deeds
  · rw [hstory, hsaid, h.told]
  · intro hL
    rcases hq.handles L hL with h1 | h1
    · exact h.handles h1
    · have := lt_of_getElem? h.load
      rw [World.length_core] at this
      omega
  · obtain ⟨x', hx', hu⟩ := hq.old D x (.inl rfl) hx
    exact ⟨x', hx', hu.stack, hu.returned⟩
  · rw [← hnil]
    exact hl hm.drains hm.drives

/-- A step is the driver's, or gives the driver up, or goes on behind its back. -/
theorem step {m : Option Nat} (h : Stage su c p D L acts w a) (hm : c.Mute)
    (hc : ∀ sc ∈ su.catalog, sc.obeys c = true) (hn : Next su (fun _ => False) w m w') :
    (m = some D ∧ w.running = some D ∧ w' = w.runTask su D) ∨
    (∃ v : World, m = none ∧ w.Later v ∧ v.running = none ∧ w' = v.cancelNow D) ∨
    ∃ a', Backstage su c p D L acts m w w' a a' := by
  rcases hn.split h.others fun t b f rest ht hb hs => hm.no_loads (hs ▸ h.others t b ht hb) with
    ⟨t, rfl | rfl, rfl, hr, rfl⟩ | ⟨t, v, rfl | rfl, rfl, hr, hd, hv, hvr, rfl⟩ | hq
  · exact .inl ⟨rfl, hr, rfl⟩
  · exact .inr (.inr (h.backstage_move hm hc hr))
  · exact .inr (.inl ⟨v, rfl, hv, hvr, rfl⟩)
  · exact .inr (.inr (h.backstage_drop hr hd hv hvr))
  · exact .inr (.inr (h.backstage_quiet hm hq))

end Stage

end PageTest
