import PageTest.Proofs.Runs.Tickets

/-! Run passes exclude each other, as long as no load resets the registry while a pass that was begun
outside of all loads is still going on. Passes within loads never meet: the lock keeps them apart. -/

namespace PageTest

variable {su : Setup} {w v : World} {f : Frame} {others : List Frame} {m : Move}

theorem Newcomer.shaped {rule : Step → Bool} {a : Activity} (h : Newcomer rule a) :
    Shaped a.stack a.returned := by
  have hs : ∀ g ∈ a.stack, g.Sits := fun g hg => Frame.sits_of_plain (h.plain g hg)
  cases hst : a.stack with
  | nil => trivial
  | cons f rest =>
    rw [hst] at hs
    have hf : f.inTest = false := Frame.inTest_of_plain (h.plain f (by simp [hst]))
    rw [h.returned]
    exact ⟨hf, fun g hg => hs g (by simp [hg])⟩

/-! Calm tasks -/

/-- Steps that neither reset the registry nor ask a task to end. A driver may do so. -/
def Step.calm : Step → Bool
  | .reset | .abort _ | .runPath _ | .runPaths _ => false
  | _ => true

theorem Step.calm_rules (hc : ∀ sc ∈ su.catalog, Step.allEvery Step.calm Step.calm sc.body = true) :
    Rules su Step.calm Step.calm where
  path _ := rfl
  paths _ := rfl
  navigates := ⟨fun _ => rfl, fun _ => rfl⟩
  scripts _ _ _ h := hc _ (List.mem_of_find?_eq_some h)

/-- Tasks that are calm and well on their way. -/
structure Calm (w : World) : Prop where
  kept : ∀ a ∈ w.core.tasks, a.cancelled = false
  shaped : ∀ a ∈ w.core.tasks, Shaped a.stack a.returned
  keeps : ∀ a ∈ w.core.tasks, ∀ g ∈ a.stack, g.Keeps Step.calm Step.calm
  tests : ∀ t ∈ w.registry.tests, Step.allEvery Step.calm Step.calm t.body = true
  ticketed : Ticketed w.frames w.lock

/-- A run pass on a stack that is not within a load. -/
def directPass : List Frame → Bool
  | [] => false
  | f :: rest => (f.isPass && rest.all (!·.isLoad)) || directPass rest

theorem load_below {above below : List Frame} {g : Frame}
    (h : directPass (above ++ g :: below) = false) (hg : g.isPass = true) :
    ∃ l ∈ below, l.isLoad = true := by
  induction above with
  | nil => simpa [directPass, hg] using (Bool.or_eq_false_iff.1 h).1
  | cons f above ih => exact ih (Bool.or_eq_false_iff.1 h).2

/-- An accepted load is about to reset the registry. -/
def resets (su : Setup) : List Frame → Bool
  | .load p (.entered _) :: _ => Frame.startsWith p su.driver.harness.pathStart
  | _ => false

theorem load_of_resets {rest : List Frame} (h : resets su (f :: rest) = true) :
    ∃ p k, f = .load p (.entered k) := by
  cases f with
  | load p phase => cases phase <;> first | exact ⟨_, _, rfl⟩ | simp [resets] at h
  | _ => simp [resets] at h

theorem Frame.open_of_resets (su : Setup) (w : World) (self : Nat) (rest : List Frame)
    {ret : Option Outcome} (hs : ret.isSome → f.Sits) (h : resets su (f :: rest) = true) :
    (f.act su w self ret).1.registry = .empty := by
  obtain ⟨p, k, rfl⟩ := load_of_resets h
  cases ret with
  | some o => exact (hs rfl).elim
  | none =>
    have hp : Frame.startsWith p su.driver.harness.pathStart = true := h
    simp only [act, run, runLoad, hp, if_true]
    split <;> rfl

theorem pass_of_direct {st : List Frame} (h : directPass st = true) : ∃ g ∈ st, g.isPass = true := by
  induction st with
  | nil => simp [directPass] at h
  | cons f rest ih =>
    rcases Bool.or_eq_true_iff.1 h with h1 | h1
    · exact ⟨f, by simp, (Bool.and_eq_true_iff.1 h1).1⟩
    · obtain ⟨g, hg, hp⟩ := ih h1
      exact ⟨g, by simp [hg], hp⟩

/-- A load resets the registry while a run pass is in progress that was begun outside of all loads. -/
def Act.intrudes (su : Setup) (act : Act) : Bool :=
  act.activity?.any (resets su ·.stack) && act.before.core.tasks.any (directPass ·.stack)

namespace Calm

/-- What a resetting load would intrude upon is the only pass there could be. -/
theorem alone {t : Nat} {a : Activity} {rest : List Frame} {p : String} {k : Nat} {w' : World}
    (h : Calm w) (ha : w.core.tasks[t]? = some a) (hs : a.stack = .load p (.entered k) :: rest)
    (hp : Frame.startsWith p su.driver.harness.pathStart = true)
    (hi : (Act.mk (some t) w w').intrudes su = false) (hperm : w.frames.Perm (.load p (.entered k) :: others))
    (hrest : ∀ g ∈ rest, g ∈ others)
    (hother : ∀ (i : Nat) (b : Activity), i ≠ t → w.core.tasks[i]? = some b → ∀ g ∈ b.stack, g ∈ others) :
    passes others = 0 := by
  by_contra hne
  obtain ⟨g, hg, hpass⟩ := List.countP_pos_iff.1 (Nat.pos_of_ne_zero hne)
  obtain ⟨b, hb, hgb⟩ : ∃ b ∈ w.core.tasks, g ∈ b.stack := by
    rw [← mem_framesOf, World.framesOf_core]
    exact hperm.mem_iff.2 (List.mem_cons_of_mem _ hg)
  obtain ⟨above, below, hb'⟩ := List.append_of_mem hgb
  have hdirect : directPass (above ++ g :: below) = false := by
    have hall : ∀ b ∈ w.core.tasks, directPass b.stack = false := by
      simpa [Act.intrudes, Act.activity?, ha, hs, resets, hp] using hi
    exact hb' ▸ hall b hb
  obtain ⟨l, hl, hload⟩ := load_below hdirect hpass
  obtain ⟨i, hib⟩ := List.mem_iff_getElem?.1 hb
  -- the load below the pass was let through, and waits for what is on top of it
  have hlmem : l ∈ others ∧ l.Sits := by
    by_cases hit : i = t
    · subst hit
      obtain rfl := Option.some.inj (ha.symm.trans hib)
      have hlrest : l ∈ rest := by
        have hmem : l ∈ (a.stack).tail := by
          rw [hb']
          cases above with
          | nil => exact hl
          | cons f above => simp [hl]
        rwa [hs] at hmem
      have hsh := h.shaped a hb
      rw [hs] at hsh
      exact ⟨hrest l hlrest, hsh.2 l hlrest⟩
    · have hmem : l ∈ b.stack := by rw [hb']; simp [hl]
      have hsh := h.shaped b hb
      refine ⟨hother i b hit hib l hmem, ?_⟩
      rw [hb'] at hsh
      cases above with
      | nil => exact hsh.2 l hl
      | cons f above => exact hsh.2 l (by simp [hl])
  obtain ⟨j, hj⟩ := Frame.inside_of_sits hlmem.2 hload
  have ht := h.ticketed.perm hperm
  have hk := ht.inside (.load p (.entered k)) (by simp) k rfl
  obtain rfl : k = j := Option.some.inj (hk.symm.trans (ht.inside l (List.mem_cons_of_mem _ hlmem.1) j hj))
  have hn := ht.nodup
  rw [tickets_cons, show tickets [Frame.load p (.entered k)] = [k] from rfl, List.singleton_append,
    List.nodup_cons] at hn
  exact hn.1 (mem_tickets_of_inside hlmem.1 hj)

/-- What comes of a task's move, as far as the frames of all tasks are concerned: those of the move are in the
place of one frame, the others stay, and there may be new tasks. -/
structure Shift (su : Setup) (w : World) (t : Nat) (a : Activity) (f : Frame) (rest : List Frame) (v : World) (m : Move)
    (others : List Frame) (new : List Activity) : Prop where
  part : Part su w f v m
  seated : m.Seated
  keeps : ∀ g ∈ m.frames, g.Keeps Step.calm Step.calm
  opens : resets su (f :: rest) = true → v.registry = .empty
  registry : (w.runTask su t).registry = v.registry
  lock : (w.runTask su t).lock = v.lock
  tasks : (w.runTask su t).core.tasks = w.core.tasks.modify t (·.put (m.frames ++ rest) (m.onto rest).2) ++ new
  newcomers : ∀ b ∈ new, Newcomer Step.calm b
  before : w.frames.Perm (f :: others)
  after : (w.runTask su t).frames.Perm (m.frames ++ others ++ framesOf new)
  below : ∀ g ∈ rest, g ∈ others
  beside : ∀ (i : Nat) (b : Activity), i ≠ t → w.core.tasks[i]? = some b → ∀ g ∈ b.stack, g ∈ others

variable {t : Nat} {a : Activity} {rest : List Frame} {new : List Activity}

theorem exists_shift (h : Calm w) (hc : ∀ sc ∈ su.catalog, Step.allEvery Step.calm Step.calm sc.body = true)
    (ha : w.core.tasks[t]? = some a) (hs : a.stack = f :: rest) :
    ∃ v m others new, Shift su w t a f rest v m others new := by
  have hmem := List.mem_of_getElem? ha
  have hcancel := h.kept a hmem
  have hkeeps : f.Keeps Step.calm Step.calm := h.keeps a hmem f (by simp [hs])
  have hshaped : Shaped (f :: rest) a.returned := hs ▸ h.shaped a hmem
  have hsits (hret : a.returned.isSome) : f.Sits := by simpa [hret] using hshaped.1
  have hcore := World.core_runTask su ha hs
  have law := Frame.lawful_act (Step.calm_rules hc) t a.returned hkeeps h.tests
  obtain ⟨part, seated⟩ := Frame.part_act (w := w) (Step.calm_rules hc) rfl t a.returned hkeeps hsits
  have hopen := Frame.open_of_resets su w t rest hsits
  generalize f.act su w t a.returned = p at hcore law part seated hopen
  obtain ⟨v, m⟩ := p
  dsimp only at hcore law part seated hopen
  obtain ⟨new, hv, hnew⟩ := law.new (fun _ => rfl)
  have hva : v.core.tasks[t]? = some a := law.old (fun _ => rfl) t a ha
  have htasks : (w.runTask su t).core.tasks =
      w.core.tasks.modify t (·.put (m.frames ++ rest) (m.onto rest).2) ++ new := by
    rw [hcore, Core.settle_tasks hva hcancel, hv, Move.onto_frames, modify_append (lt_of_getElem? ha)]
  obtain ⟨others, hbefore, hafter, hrest, hothers⟩ := framesOf_modify ha hs
  refine ⟨v, m, others, new, part, seated, law.frames, hopen, ?_, ?_, htasks, hnew, ?_, ?_, hrest, hothers⟩
  · exact (congrArg Core.registry hcore).trans (Core.settle_registry ..)
  · refine (congrArg Core.lock hcore).trans ?_
    rw [Core.settle_lock hva, if_neg (by simp [hcancel])]
    rfl
  · rwa [World.framesOf_core] at hbefore
  · rw [← World.framesOf_core, htasks, framesOf, List.flatMap_append]
    exact (hafter m.frames _).append_right _

namespace Shift

theorem plain (hsh : Shift su w t a f rest v m others new) : ∀ g ∈ framesOf new, g.isPlain = true := by
  intro g hg
  obtain ⟨b, hb, hgb⟩ := mem_framesOf.1 hg
  exact (hsh.newcomers b hb).plain g hgb

theorem passes (hsh : Shift su w t a f rest v m others new) :
    passes (w.runTask su t).frames = PageTest.passes (m.frames ++ others) := by
  rw [PageTest.passes, hsh.after.countP_eq, List.countP_append]
  exact congrArg (_ + ·) (passes_of_plain hsh.plain)

/-- Tasks stay calm. -/
theorem calm (hsh : Shift su w t a f rest v m others new) (h : Calm w) (ha : w.core.tasks[t]? = some a)
    (hs : a.stack = f :: rest) : Calm (w.runTask su t) := by
  have hmem := List.mem_of_getElem? ha
  have hkeeps : ∀ g ∈ f :: rest, g.Keeps Step.calm Step.calm := hs ▸ h.keeps a hmem
  have hshaped : Shaped (f :: rest) a.returned := hs ▸ h.shaped a hmem
  have hall (b : Activity) (hb : b ∈ (w.runTask su t).core.tasks) :
      b ∈ w.core.tasks ∨ b = a.put (m.frames ++ rest) (m.onto rest).2 ∨ b ∈ new := by
    rw [hsh.tasks] at hb
    rcases List.mem_append.1 hb with h1 | h1
    · exact (mem_modify ha h1).imp_right .inl
    · exact .inr (.inr h1)
  refine ⟨fun b hb => ?_, fun b hb => ?_, fun b hb g hg => ?_, ?_, ?_⟩
  · rcases hall b hb with h1 | rfl | h1
    · exact h.kept b h1
    · exact h.kept a hmem
    · exact (hsh.newcomers b h1).cancelled
  · rcases hall b hb with h1 | rfl | h1
    · exact h.shaped b h1
    · rw [← Move.onto_frames]
      exact hsh.seated.onto hshaped.2
    · exact (hsh.newcomers b h1).shaped
  · rcases hall b hb with h1 | rfl | h1
    · exact h.keeps b h1 g hg
    · rcases List.mem_append.1 hg with h2 | h2
      · exact hsh.keeps g h2
      · exact hkeeps g (by simp [h2])
    · exact (hsh.newcomers b h1).keeps g hg
  · rw [hsh.registry]
    exact hsh.part.keeps (fun _ => rfl) (hkeeps f (by simp)) h.tests
  · rw [hsh.lock]
    exact ((hsh.part.ticketed (h.ticketed.perm hsh.before)).append_plain hsh.plain).perm hsh.after.symm

/-- A reset under a pass that no load holds leaves a pass that the registry knows nothing of. -/
theorem not_exclusive (hsh : Shift su w t a f rest v m others new) (ha : w.core.tasks[t]? = some a)
    (hs : a.stack = f :: rest) (hi : (Act.mk (some t) w (w.runTask su t)).intrudes su = true) :
    ¬ (w.runTask su t).Exclusive := by
  intro hx
  obtain ⟨hreset, hdirect⟩ : resets su (f :: rest) = true ∧ ∃ b ∈ w.core.tasks, directPass b.stack = true := by
    simpa [Act.intrudes, Act.activity?, ha, hs] using hi
  obtain ⟨p, k, rfl⟩ := load_of_resets hreset
  have hpos : 0 < PageTest.passes w.frames := by
    obtain ⟨b, hb, hd⟩ := hdirect
    obtain ⟨g, hg, hpass⟩ := pass_of_direct hd
    refine List.countP_pos_iff.2 ⟨g, ?_, hpass⟩
    rw [← World.framesOf_core]
    exact mem_framesOf.2 ⟨b, hb, hg⟩
  have hsame : PageTest.passes w.frames = PageTest.passes others := by
    rw [PageTest.passes, hsh.before.countP_eq]
    rfl
  rw [World.Exclusive, hsh.registry, hsh.opens hreset, hsh.passes, passes_append] at hx
  have hzero : (Registry.empty : Registry Test).running = 0 := rfl
  omega

end Shift

/-- One move of a task that is in the middle of something. -/
theorem move (h : Calm w) (hc : ∀ sc ∈ su.catalog, Step.allEvery Step.calm Step.calm sc.body = true)
    (ha : w.core.tasks[t]? = some a) (hs : a.stack = f :: rest) :
    Calm (w.runTask su t) ∧ (w.Exclusive →
      ((w.runTask su t).Exclusive ↔ (Act.mk (some t) w (w.runTask su t)).intrudes su = false)) := by
  obtain ⟨v, m, others, new, hsh⟩ := h.exists_shift hc ha hs
  refine ⟨hsh.calm h ha hs, fun hx => ⟨fun hx' => ?_, fun hi => ?_⟩⟩
  · by_contra hi
    exact hsh.not_exclusive ha hs (by simpa using hi) hx'
  · rw [World.Exclusive, hsh.registry, hsh.passes]
    refine hsh.part.exclusive ?_ fun p k hf hp => h.alone ha (hf ▸ hs) hp hi (hf ▸ hsh.before) hsh.below hsh.beside
    rw [← hx]
    exact (hsh.before.countP_eq _).symm

/-- Nothing happened to what tasks are in the middle of. -/
theorem quiet {w' : World} (h : Calm w) (hr : w'.registry = w.registry) (hl : w'.lock = w.lock)
    (hs : w'.core.tasks.map (·.stack) = w.core.tasks.map (·.stack))
    (ht : ∀ b ∈ w'.core.tasks, b ∈ w.core.tasks ∨ (b.stack = [] ∧ b.cancelled = false)) :
    Calm w' ∧ (w'.Exclusive ↔ w.Exclusive) := by
  have hf : w'.frames = w.frames := by
    simp only [← World.framesOf_core, framesOf, List.flatMap_def, hs]
  refine ⟨⟨fun b hb => ?_, fun b hb => ?_, fun b hb g hg => ?_, hr ▸ h.tests, by
    rw [hf, hl]; exact h.ticketed⟩, by rw [World.Exclusive, hf, hr, World.Exclusive]⟩
  · exact (ht b hb).elim (h.kept b) (·.2)
  · rcases ht b hb with h1 | h1
    · exact h.shaped b h1
    · rw [h1.1]; trivial
  · rcases ht b hb with h1 | h1
    · exact h.keeps b h1 g hg
    · simp [h1.1] at hg

/-- A task that has nothing left to do ends. -/
theorem idle (su : Setup) {t : Nat} {a : Activity} (h : Calm w) (ha : w.core.tasks[t]? = some a) (hs : a.stack = []) :
    Calm (w.runTask su t) ∧ ((w.runTask su t).Exclusive ↔ w.Exclusive) := by
  have hcore := World.core_runTask_nil su ha hs
  refine h.quiet (congrArg Core.registry hcore) (congrArg Core.lock hcore) ?_ fun b hb => ?_
  · rw [hcore]
    dsimp only
    split_ifs
    · rfl
    · refine List.ext_getElem? fun i => ?_
      rw [List.getElem?_map, List.getElem?_map, List.getElem?_modify]
      by_cases hi : t = i
      · subst hi
        simp [ha, hs, Activity.finish]
      · simp [hi]
  · rw [hcore] at hb
    dsimp only at hb
    split_ifs at hb
    · exact .inl hb
    · rcases mem_modify ha hb with h1 | rfl
      · exact .inl h1
      · exact .inr ⟨rfl, h.kept a (List.mem_of_getElem? ha)⟩

/-- One step under any scheduler. -/
theorem step {mover : Option Nat} {w' : World} (h : Calm w)
    (hc : ∀ sc ∈ su.catalog, Step.allEvery Step.calm Step.calm sc.body = true)
    (hn : Next su (fun _ => False) w mover w') :
    Calm w' ∧ (w.Exclusive → (w'.Exclusive ↔ (Act.mk mover w w').intrudes su = false)) := by
  cases hn with
  | @move t hr =>
    cases ha : w.core.tasks[t]? with
    | none =>
      have hcore := World.core_runTask_none su ha
      have hq : Calm (w.runTask su t) ∧ ((w.runTask su t).Exclusive ↔ w.Exclusive) :=
        h.quiet (congrArg Core.registry hcore) (congrArg Core.lock hcore) (by rw [hcore])
          fun b hb => .inl (by rwa [hcore] at hb)
      exact ⟨hq.1, fun hx => by simp [hq.2, hx, Act.intrudes, Act.activity?, ha]⟩
    | some a =>
      cases hs : a.stack with
      | nil =>
        have hq := h.idle su ha hs
        exact ⟨hq.1, fun hx => by simp [hq.2, hx, Act.intrudes, Act.activity?, ha, hs, resets]⟩
      | cons f rest => exact h.move hc ha hs
  | rest _ hl _ =>
    have hq := h.quiet (congrArg Core.registry hl.core) (congrArg Core.lock hl.core) (by rw [hl.core])
      fun b hb => .inl (by rwa [hl.core] at hb)
    exact ⟨hq.1, fun hx => by simp [hq.2, hx, Act.intrudes, Act.activity?]⟩
  | drop _ _ _ hd =>
    obtain ⟨a, ha, -, hc⟩ := hd
    simp [h.kept a (List.mem_of_getElem? ha)] at hc
  | abort _ hm => exact hm.elim

theorem run {w' : World} {acts : List Act} (h : Calm w)
    (hc : ∀ sc ∈ su.catalog, Step.allEvery Step.calm Step.calm sc.body = true)
    (hr : Run su (fun _ => False) w acts w') : Calm w' := by
  induction hr with
  | start => exact h
  | step _ hn ih => exact (ih.step hc hn).1

end Calm

/-- Before any load and any run pass has begun, nobody having been asked to end. -/
structure World.Fresh (w : World) : Prop where
  idle : w.registry.state ≠ .running
  kept : ∀ a ∈ w.tasks, a.cancelled = false
  plain : ∀ f ∈ w.frames, f.isPlain = true
  keeps : ∀ f ∈ w.frames, f.Keeps Step.calm Step.calm
  tests : ∀ t ∈ w.registry.tests, Step.allEvery Step.calm Step.calm t.body = true

theorem World.Fresh.exclusive (h : w.Fresh) : w.Exclusive := by
  rw [World.Exclusive, passes_of_plain h.plain]
  exact (if_neg h.idle).symm

theorem World.Fresh.calm (h : w.Fresh) : Calm w := by
  have hframe (a : Activity) (ha : a ∈ w.core.tasks) (g : Frame) (hg : g ∈ a.stack) : g ∈ w.frames := by
    rw [← World.framesOf_core]
    exact mem_framesOf.2 ⟨a, ha, hg⟩
  refine ⟨fun a ha => ?_, fun a ha => ?_, fun a ha g hg => h.keeps g (hframe a ha g hg), h.tests, ?_⟩
  · obtain ⟨t, ht, rfl⟩ := List.mem_map.1 ha
    exact h.kept t ht
  · cases hs : a.stack with
    | nil => trivial
    | cons f rest =>
      have hplain (g : Frame) (hg : g ∈ f :: rest) : g.isPlain = true := h.plain g (hframe a ha g (hs ▸ hg))
      refine ⟨?_, fun g hg => Frame.sits_of_plain (hplain g (by simp [hg]))⟩
      split
      · exact Frame.sits_of_plain (hplain f (by simp))
      · exact Frame.inTest_of_plain (hplain f (by simp))
  · have ht := tickets_of_plain h.plain
    refine ⟨by rw [ht]; exact List.nodup_nil, by simp [ht], fun f hf k hk => ?_⟩
    simp [Frame.inside_of_plain (h.plain f hf)] at hk

/-- A run pass begins with its next test. -/
def Act.starts (act : Act) : Bool :=
  act.activity?.any fun a => match a.stack, a.returned with
    | .pass _ (_ :: _) :: _, none => true
    | _, _ => false

theorem Calm.starts {act : Act} (h : Calm act.before) (hx : act.before.Exclusive)
    (hs : act.starts = true) :
    passes act.before.frames = 1 ∧ ∀ f ∈ act.before.frames, f.inTest = false := by
  obtain ⟨a, hact, hs⟩ := (Option.any_eq_true ..).1 hs
  obtain ⟨t, -, ha⟩ := Option.bind_eq_some_iff.1 hact
  split at hs
  case h_2 => simp at hs
  case h_1 cur u queue rest hstack hret =>
    have hshaped := h.shaped a (List.mem_of_getElem? ha)
    rw [hstack, hret] at hshaped
    obtain ⟨others, hperm, -⟩ := framesOf_modify ha hstack
    rw [World.framesOf_core] at hperm
    have hcount : passes act.before.frames = 1 + passes others := by
      rw [passes, hperm.countP_eq]
      exact passes_cons
    have hle : act.before.registry.running ≤ 1 := by unfold Registry.running; split_ifs <;> omega
    rw [World.Exclusive, hcount] at hx
    refine ⟨by omega, fun f hf => ?_⟩
    rcases List.mem_cons.1 (hperm.mem_iff.1 hf) with rfl | hf
    · exact hshaped.1
    · have hzero : passes others = 0 := by omega
      have hpass := List.countP_eq_zero.1 hzero f hf
      cases f with
      | pass cur queue => exact absurd rfl hpass
      | _ => rfl

/-- While calm tasks call run passes and loads and register tests, one run pass at a time is in
progress exactly as long as no load resets the registry under a pass that was begun outside of all
loads. As long as this is so, everybody is refused who registers a test or begins another pass, and
a test starts only while no other one is going on. -/
theorem runs_exclusive {w w' : World} {acts : List Act}
    (hc : ∀ sc ∈ su.catalog, Step.allEvery Step.calm Step.calm sc.body = true) (hw : w.Fresh)
    (hr : Run su (fun _ => False) w acts w') :
    ((∀ act ∈ acts, act.after.Exclusive) ↔ ∀ act ∈ acts, act.intrudes su = false) ∧
      ∀ act ∈ acts, act.before.Exclusive →
        (0 < passes act.before.frames → act.before.Refuses su) ∧
        (act.starts = true →
          passes act.before.frames = 1 ∧ ∀ f ∈ act.before.frames, f.inTest = false) := by
  have hall : (∀ act ∈ acts, act.after.Exclusive) ↔ ∀ act ∈ acts, act.intrudes su = false := by
    suffices h : ((∀ act ∈ acts, act.after.Exclusive) ↔ ∀ act ∈ acts, act.intrudes su = false) ∧
        ((∀ act ∈ acts, act.after.Exclusive) → w'.Exclusive) from h.1
    induction hr with
    | start => simp [hw.exclusive]
    | step hr hn ih =>
      obtain ⟨ih, hlast⟩ := ih
      have hstep := ((hw.calm.run hc hr).step hc hn).2
      simp only [List.mem_append, List.mem_singleton, or_imp, forall_and, forall_eq]
      refine ⟨⟨fun h => ⟨ih.1 h.1, (hstep (hlast h.1)).1 h.2⟩, fun h => ?_⟩, fun h => h.2⟩
      have hbefore := ih.2 h.1
      exact ⟨hbefore, (hstep (hlast hbefore)).2 h.2⟩
  refine ⟨hall, fun act ha hx => ?_⟩
  obtain ⟨acts₁, -, -, hr₁, -, -⟩ := hr.each ha
  have hcalm := hw.calm.run hc hr₁
  refine ⟨fun hp => World.refuses_of_running ?_, hcalm.starts hx⟩
  by_contra hs
  rw [World.Exclusive, Registry.running, if_neg hs] at hx
  omega

/-- A run pass that sleeps while others register, begin a pass and load. -/
def Demo.overlap : World :=
  world [.steps .hidden [] none
      [.addTest "first" [.info "begun", .sleep 100, .info "over"] none false, .run]]
    [[.steps .hidden [] none [.addTest "late" [] none false]],
      [.steps .hidden [] none [.attempt .run, .load failingPath]]]

theorem Demo.overlap_fresh : overlap.Fresh where
  idle := by decide
  kept := by decide +kernel
  plain := by decide +kernel
  keeps f hf := by
    simp only [World.frames, overlap, world, List.map_cons, List.map_nil, List.flatMap_cons,
      List.flatMap_nil, Task.start, List.append_nil, List.cons_append, List.nil_append,
      List.mem_cons, List.not_mem_nil, or_false] at hf
    rcases hf with rfl | rfl | rfl <;> rfl
  tests := by decide +kernel

/-- All goes well until the load resets the registry under the pass. -/
theorem runs_exclusive_demo : (∀ act ∈ Demo.overlap.actsOf Demo.setup 14, act.after.Exclusive) ∧
    ¬ ∀ act ∈ Demo.overlap.actsOf Demo.setup 15, act.after.Exclusive := by
  have hscripts : ∀ sc ∈ Demo.setup.catalog, Step.allEvery Step.calm Step.calm sc.body = true := by
    decide +kernel
  have each (n : Nat) := (runs_exclusive hscripts Demo.overlap_fresh (World.run_afterSteps n Demo.overlap)).1
  refine ⟨(each 14).2 (by decide +kernel), fun h => ?_⟩
  exact absurd ((each 15).1 h) (by decide +kernel)

end PageTest
